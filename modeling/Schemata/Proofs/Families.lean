import Schemata.Proofs.PrimaryKeys

/-!
# The family gates and does not shape

The database family has a say in one place, the check of a primary key's type, and this check passes
or refuses and gives nothing else.  Two computations that differ in the family alone therefore
`Agree`: where both succeed they succeed with one value.  Agreement is carried from the check up:

* `ColumnDefinition.agree_read`, `CreateTable.agree_read`, `Statement.agree_read`: what is read;
* `Operation.agree_alterations`, `Statement.agree_applyText`: what is carried out, also by the texts
  of the clauses of a statement, which are read again;
* `agree_replay`: whole replays.

Agreement says nothing where one side fails, so a run under one family may stop early, and nothing
is compared from there on.  It is enough for whole runs because a check has no value and no effect:
the value that both sides go on with is the same one, up to the next check.

A primary key that both families accept would have two types at once, so that a catalog both
families agree on has none (`replay_postgres_eq_sqlite`).
-/

namespace Schemata

/-! ## Computations that agree -/

section Agree

variable {α β ε : Type}

/-- Where both computations succeed, they give one value. -/
def Agree (first second : Except ε α) : Prop :=
  ∀ ⦃value other : α⦄, first = .ok value → second = .ok other → value = other

theorem agree_refl (result : Except ε α) : Agree result result := by
  intro value other hvalue hother
  rw [hvalue] at hother
  exact Except.ok.inj hother

/-- A check has only one value to give. -/
theorem agree_unit (first second : Except ε Unit) : Agree first second :=
  fun _ _ _ _ => rfl

theorem agree_error_left (error : ε) (second : Except ε α) : Agree (.error error) second :=
  fun _ _ hvalue _ => nomatch hvalue

/-- What follows a value goes on from the same one on both sides. -/
theorem Agree.bind {first second : Except ε α} {next after : α → Except ε β}
    (hfirst : Agree first second) (hnext : ∀ value, Agree (next value) (after value)) :
    Agree (first >>= next) (second >>= after) := by
  intro result other hresult hother
  obtain ⟨value, hvalue, hresult⟩ := except_bind_eq_ok.mp hresult
  obtain ⟨same, hsame, hother⟩ := except_bind_eq_ok.mp hother
  cases hfirst hvalue hsame
  exact hnext value hresult hother

theorem agree_foldlM {first second : α → β → Except ε α}
    (hstep : ∀ start item, Agree (first start item) (second start item)) (items : List β)
    (start : α) : Agree (items.foldlM first start) (items.foldlM second start) := by
  induction items generalizing start with
  | nil => exact agree_refl _
  | cons item rest ih =>
      rw [List.foldlM_cons, List.foldlM_cons]
      exact (hstep start item).bind ih

theorem agree_mapM {first second : β → Except ε α}
    (hstep : ∀ item, Agree (first item) (second item)) (items : List β) :
    Agree (items.mapM first) (items.mapM second) := by
  induction items with
  | nil => exact agree_refl _
  | cons item rest ih =>
      rw [List.mapM_cons, List.mapM_cons]
      exact (hstep item).bind fun value => ih.bind fun values => agree_refl _

end Agree

/-! ## Changes that agree -/

namespace Change

variable {α β : Type}

theorem agree_ofReading {first second : Except ParseError α} (hagree : Agree first second) :
    Agree (ofReading first) (ofReading second) :=
  fun _ _ hvalue hother => hagree (ofReading_eq_ok.mp hvalue) (ofReading_eq_ok.mp hother)

/-- From one catalog, where both changes succeed, they give one value and leave one catalog. -/
def Agree (first second : Change α) : Prop :=
  ∀ ⦃catalog value other after left⦄, first.run catalog = .ok value after →
    second.run catalog = .ok other left → value = other ∧ after = left

theorem agree_refl (change : Change α) : Agree change change := by
  intro catalog value other after left hvalue hother
  rw [hvalue] at hother
  cases hother
  exact ⟨rfl, rfl⟩

theorem Agree.bind {first second : Change α} {next after : α → Change β}
    (hfirst : Agree first second) (hnext : ∀ value, Agree (next value) (after value)) :
    Agree (first >>= next) (second >>= after) := by
  intro catalog result other done left hresult hother
  rw [EStateM.run_bind] at hresult hother
  cases hvalue : first.run catalog with
  | error error middle =>
      rw [hvalue] at hresult
      cases hresult
  | ok value middle =>
      cases hsame : second.run catalog with
      | error error middle =>
          rw [hsame] at hother
          cases hother
      | ok same others =>
          obtain ⟨rfl, rfl⟩ := hfirst hvalue hsame
          rw [hvalue] at hresult
          rw [hsame] at hother
          exact hnext value hresult hother

theorem agree_ofExcept {first second : Except CatalogError α}
    (hagree : Schemata.Agree first second) : Agree (ofExcept first) (ofExcept second) := by
  intro catalog value other after left hvalue hother
  cases first with
  | error error => cases hvalue
  | ok result =>
      cases second with
      | error error => cases hother
      | ok same =>
          cases hvalue
          cases hother
          exact ⟨hagree rfl rfl, rfl⟩

theorem agree_forM {first second : α → Change Unit}
    (hstep : ∀ item, Agree (first item) (second item)) (items : List α) :
    Agree (items.forM first) (items.forM second) := by
  rw [List.forM_eq_forM]
  induction items with
  | nil => exact agree_refl _
  | cons item rest ih =>
      rw [List.forM_cons, List.forM_cons]
      exact (hstep item).bind fun _ => ih

end Change

/-! ## Reading -/

section Families

variable {file text table : String} {first second : Family}

theorem ColumnDefinition.agree_read :
    Agree (read ⟨file, first⟩ table text) (read ⟨file, second⟩ table text) := by
  unfold read
  exact (agree_refl _).bind fun definition => (agree_unit _ _).bind fun _ => agree_refl _

theorem CreateTable.agree_readClause (body : TableBody) (clause : String) :
    Agree (readClause ⟨file, first⟩ text table body clause)
      (readClause ⟨file, second⟩ text table body clause) := by
  unfold readClause
  refine (agree_refl _).bind fun constraint? => ?_
  cases constraint? with
  | some constraint => exact agree_refl _
  | none => exact ColumnDefinition.agree_read.bind fun definition => agree_refl _

theorem CreateTable.agree_markKey (columns : List Column) (key : String) :
    Agree (markKey ⟨file, first⟩ text table columns key)
      (markKey ⟨file, second⟩ text table columns key) := by
  unfold markKey
  split
  · exact agree_error_left _ _
  · exact (agree_unit _ _).bind fun _ => agree_refl _

theorem CreateTable.agree_markColumns (body : TableBody) :
    Agree (markColumns ⟨file, first⟩ text table body)
      (markColumns ⟨file, second⟩ text table body) := by
  unfold markColumns
  exact (agree_foldlM agree_markKey _ _).bind fun columns => agree_refl _

theorem CreateTable.agree_read :
    Agree (read ⟨file, first⟩ text) (read ⟨file, second⟩ text) := by
  unfold read
  refine (agree_refl _).bind fun header => ?_
  dsimp only
  split
  · exact agree_error_left _ _
  · refine (agree_foldlM agree_readClause _ _).bind fun body => ?_
    exact (agree_markColumns body).bind fun columns => agree_refl _

theorem Operation.agree_read :
    Agree (read ⟨file, first⟩ table text) (read ⟨file, second⟩ table text) := by
  unfold read
  refine (agree_refl _).bind fun outline => ?_
  cases outline with
  | whole operation => exact agree_refl _
  | constraint added => exact agree_refl _
  | column added ifNotExists =>
      exact ColumnDefinition.agree_read.bind fun definition => agree_refl _

theorem AlterTable.agree_read :
    Agree (read ⟨file, first⟩ text) (read ⟨file, second⟩ text) := by
  unfold read
  refine (agree_refl _).bind fun header => ?_
  dsimp only
  split
  · exact Operation.agree_read.bind fun operation => agree_refl _
  · exact agree_refl _

theorem Statement.agree_readKind (kind : Statement.Kind) :
    Agree (readKind ⟨file, first⟩ text kind) (readKind ⟨file, second⟩ text kind) := by
  cases kind with
  | createTable => exact CreateTable.agree_read.bind fun statement => agree_refl _
  | alterTable => exact AlterTable.agree_read.bind fun statement => agree_refl _
  | _ => exact agree_refl _

theorem Statement.agree_read : Agree (read ⟨file, first⟩ text) (read ⟨file, second⟩ text) := by
  unfold read
  dsimp only
  split
  · exact agree_error_left _ _
  split
  · exact agree_readKind _
  · exact agree_refl _

/-! ## Carrying out -/

theorem Alteration.agree_putBack (owner : Table) (column : Column) :
    Agree (putBack ⟨file, first⟩ owner column) (putBack ⟨file, second⟩ owner column) := by
  unfold putBack
  exact (agree_unit _ _).bind fun _ => agree_refl _

theorem TableConstraint.agree_alterations (owner : Table) (constraint : TableConstraint) :
    Agree (constraint.alterations ⟨file, first⟩ owner)
      (constraint.alterations ⟨file, second⟩ owner) := by
  unfold TableConstraint.alterations
  split
  · refine agree_mapM (fun name => ?_) _
    exact (agree_refl _).bind fun column => Alteration.agree_putBack owner _
  · exact agree_refl _
  · exact agree_refl _
  · exact agree_refl _

theorem Operation.agree_alterations (owner : Table) (operation : Operation) :
    Agree (operation.alterations ⟨file, first⟩ owner)
      (operation.alterations ⟨file, second⟩ owner) := by
  cases operation with
  | alterColumn name change =>
      refine (agree_refl _).bind fun column => ?_
      -- A change of a column asks for the file alone.
      have hchange : change.change ⟨file, first⟩ owner column =
          change.change ⟨file, second⟩ owner column := by
        cases change <;> rfl
      rw [hchange]
      refine (agree_refl _).bind fun changed => ?_
      exact (Alteration.agree_putBack owner changed).bind fun alteration => agree_refl _
  | addConstraint constraint => exact constraint.agree_alterations owner
  | _ => exact agree_refl _

theorem AlterTable.agree_apply (statement : AlterTable) {again next : String → Change Unit}
    (hagain : ∀ clause, Change.Agree (again clause) (next clause)) :
    Change.Agree (statement.apply ⟨file, first⟩ again) (statement.apply ⟨file, second⟩ next) := by
  unfold AlterTable.apply
  refine (Change.agree_refl _).bind fun catalog => ?_
  refine (Change.agree_refl _).bind fun catalog => ?_
  split
  · exact Change.agree_refl _
  refine (Change.agree_refl _).bind fun catalog => ?_
  refine (Change.agree_refl _).bind fun owner => ?_
  split
  · exact Change.agree_refl _
  · exact Change.agree_forM (fun clause => hagain _) _
  · refine (Change.agree_ofExcept (Operation.agree_alterations owner _)).bind fun alterations => ?_
    exact Change.agree_refl _

/-- Nested statements agree at every depth. -/
theorem Statement.agree_applyNested (depth : Nat) (statement : Statement) :
    Change.Agree (applyNested ⟨file, first⟩ depth statement)
      (applyNested ⟨file, second⟩ depth statement) := by
  induction depth generalizing statement with
  | zero =>
      cases statement with
      | alterTable statement => exact statement.agree_apply fun clause => Change.agree_refl _
      | _ => exact Change.agree_refl _
  | succ depth ih =>
      cases statement with
      | alterTable statement =>
          refine statement.agree_apply fun clause => ?_
          exact (Change.agree_ofExcept (Change.agree_ofReading agree_read)).bind ih
      | _ => exact Change.agree_refl _

theorem Statement.agree_applyText (text : String) :
    Change.Agree (applyText ⟨file, first⟩ text) (applyText ⟨file, second⟩ text) := by
  unfold applyText
  exact (Change.agree_ofExcept (Change.agree_ofReading agree_read)).bind
    (agree_applyNested nestingDepth)

theorem Migration.applyStatement_eq_ok_iff {family : Family} {catalog after : Catalog} :
    (applyStatement family file text).run catalog = .ok () after ↔
      (Statement.applyText ⟨file, family⟩ text).run catalog = .ok () after := by
  unfold applyStatement
  generalize Statement.applyText ⟨file, family⟩ text = change
  unfold EStateM.run
  dsimp only
  cases change catalog <;> simp

theorem Migration.agree_applyAll (migrations : List Migration) :
    Change.Agree (applyAll first migrations) (applyAll second migrations) := by
  refine Change.agree_forM (fun migration => ?_) migrations
  refine Change.agree_forM (fun text => ?_) migration.statements
  intro catalog _ _ after left hfirst hsecond
  exact Statement.agree_applyText text (applyStatement_eq_ok_iff.mp hfirst)
    (applyStatement_eq_ok_iff.mp hsecond)

end Families

/-! ## Replays -/

theorem replay_eq_ok_iff {settings : Settings} {migrations : List Migration} {result : Catalog} :
    replay settings migrations = .ok result ↔ ∃ start, settings.catalog = .ok start ∧
      (Migration.applyAll settings.family migrations).run start = .ok () result := by
  unfold replay
  rw [except_bind_eq_ok]
  refine exists_congr fun start => and_congr_right fun _ => ?_
  cases (Migration.applyAll settings.family migrations).run start <;> simp

/-- Replays under two families agree. -/
theorem agree_replay (first second : Family) (defaultSchema : String)
    (migrations : List Migration) :
    Agree (replay ⟨first, defaultSchema⟩ migrations)
      (replay ⟨second, defaultSchema⟩ migrations) := by
  intro result other hresult hother
  obtain ⟨start, hstart, hrun⟩ := replay_eq_ok_iff.mp hresult
  obtain ⟨same, hsame, hrerun⟩ := replay_eq_ok_iff.mp hother
  cases agree_refl _ hstart hsame
  exact (Migration.agree_applyAll migrations hrun hrerun).2

/-- In the catalog of a replay all primary keys fit the family. -/
theorem fitsKeys_of_replay {settings : Settings} {migrations : List Migration} {result : Catalog}
    (hresult : replay settings migrations = .ok result) : result.FitsKeys settings.family := by
  obtain ⟨start, hstart, hrun⟩ := replay_eq_ok_iff.mp hresult
  simp only [Settings.catalog, except_bind_eq_ok, except_pure_eq_ok] at hstart
  obtain ⟨⟨⟩, -, rfl⟩ := hstart
  have hempty : (Catalog.new settings.defaultSchema).FitsKeys settings.family := by
    intro schema name table htable
    rw [Catalog.table?_new] at htable
    cases htable
  have hleft := fitsKeys_afterReplay [.migrations migrations] hempty
  have hsame : afterReplay settings.family (.new settings.defaultSchema) [.migrations migrations] =
      result := by
    simp only [afterReplay, List.foldl_cons, List.foldl_nil, ReplayCall.change, Change.after, hrun]
  rwa [hsame] at hleft

/-- No type is the type of primary keys in both families. -/
theorem Column.primaryKey_eq_false_of_fitsKey {column : Column}
    (hpostgres : column.FitsKey .postgres) (hsqlite : column.FitsKey .sqlite) :
    column.primaryKey = false := by
  rw [Bool.eq_false_iff]
  intro hkey
  have huuid := (hpostgres hkey).2.2
  have htext := (hsqlite hkey).2.2
  rw [huuid] at htext
  exact absurd htext (by decide)

/-- Migrations that can be replayed under both families give one and the same catalog, and no column
in it is part of a primary key. -/
theorem replay_postgres_eq_sqlite {defaultSchema : String} {migrations : List Migration}
    {postgres sqlite : Catalog}
    (hpostgres : replay ⟨.postgres, defaultSchema⟩ migrations = .ok postgres)
    (hsqlite : replay ⟨.sqlite, defaultSchema⟩ migrations = .ok sqlite) :
    postgres = sqlite ∧
      ∀ table ∈ postgres.tables, ∀ column ∈ table.columns, column.primaryKey = false := by
  have hsame := agree_replay .postgres .sqlite defaultSchema migrations hpostgres hsqlite
  subst hsame
  refine ⟨rfl, fun table htable column hcolumn => ?_⟩
  obtain ⟨schema, name, hfound⟩ := Catalog.mem_tables_iff.mp htable
  exact Column.primaryKey_eq_false_of_fitsKey (fitsKeys_of_replay hpostgres hfound column hcolumn)
    (fitsKeys_of_replay hsqlite hfound column hcolumn)

/-- Migrations without a primary key. -/
def keylessMigrations : List Migration :=
  [⟨"1.sql", ["CREATE TABLE a (id uuid, note text)"]⟩,
    ⟨"2.sql", ["ALTER TABLE a ADD b int UNIQUE, ALTER note SET NOT NULL"]⟩]

theorem replay_postgres_eq_sqlite_keyless :
    ∃ postgres sqlite, replay ⟨.postgres, "public"⟩ keylessMigrations = .ok postgres ∧
      replay ⟨.sqlite, "public"⟩ keylessMigrations = .ok sqlite ∧ postgres = sqlite ∧
      postgres.tables.map (·.columns.map Column.name) = [["id", "note", "b"]] ∧
      ∀ table ∈ postgres.tables, ∀ column ∈ table.columns, column.primaryKey = false := by
  have hcolumns : (replay ⟨.postgres, "public"⟩ keylessMigrations).map
      (·.tables.map (·.columns.map Column.name)) = .ok [["id", "note", "b"]] := by
    decide +kernel
  have hok : ((replay ⟨.sqlite, "public"⟩ keylessMigrations).map fun _ => ()) = .ok () := by
    decide +kernel
  obtain ⟨postgres, hpostgres, hnames⟩ := except_map_eq_ok.mp hcolumns
  obtain ⟨sqlite, hsqlite, -⟩ := except_map_eq_ok.mp hok
  obtain ⟨hsame, hkeyless⟩ := replay_postgres_eq_sqlite hpostgres hsqlite
  exact ⟨postgres, sqlite, hpostgres, hsqlite, hsame, hnames, hkeyless⟩

end Schemata
