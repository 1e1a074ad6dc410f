import Schemata.Proofs.Statement.Clauses

/-!
# What a rejected statement leaves

A change that fails may have written before it failed.  `Change.IsAtomic` says that it never does,
and `Change.StopsAt` that a list of changes is carried out up to one that fails and writes nothing
itself.

Writing before failing happens in two ways only.  A statement may create the schema of its table
before the table turns out not to fit, and one about several objects or operations may have done the
first of them.

* `AlterTable.isAtomic_apply`: one operation on a table is carried out as a whole or not at all.
* `AlterTable.isAtomic_clauseText`: so is the statement made from one of several clauses.
* `Statement.remains_of_rejected`: what is left of the catalog, by the kind of the statement.
-/

namespace Schemata

instance decidableEqResult {ε σ α : Type} [DecidableEq ε] [DecidableEq σ] [DecidableEq α] :
    DecidableEq (EStateM.Result ε σ α)
  | .ok value state, .ok other left => decidable_of_iff (value = other ∧ state = left) (by simp)
  | .error value state, .error other left =>
      decidable_of_iff (value = other ∧ state = left) (by simp)
  | .ok _ _, .error _ _ => isFalse (by simp)
  | .error _ _, .ok _ _ => isFalse (by simp)

namespace Change

variable {α β : Type} {catalog left : Catalog} {error : CatalogError}

/-- A failure leaves the catalog as it was. -/
def IsAtomic (change : Change α) : Prop :=
  ∀ ⦃catalog error left⦄, change.run catalog = .error error left → left = catalog

/-- The actions for the items are carried out in order up to one that fails, and what is left is the
catalog in front of the failure. -/
def StopsAt (action : α → Change Unit) (items : List α) (catalog : Catalog) (error : CatalogError)
    (left : Catalog) : Prop :=
  ∃ done item rest, items = done ++ item :: rest ∧ (done.forM action).run catalog = .ok () left ∧
    (action item).run left = .error error left

theorem run_get_bind (next : Catalog → Change β) (catalog : Catalog) :
    (get >>= next).run catalog = (next catalog).run catalog := rfl

theorem run_modify_bind (change : Catalog → Catalog) (next : Unit → Change β) (catalog : Catalog) :
    (modify change >>= next).run catalog = (next ()).run (change catalog) := rfl

theorem isAtomic_pure (value : α) : IsAtomic (pure value) := by
  intro catalog error left hrun
  cases hrun

theorem isAtomic_throw (error : CatalogError) : IsAtomic (throw error : Change α) := by
  intro catalog found left hrun
  cases hrun
  rfl

theorem isAtomic_get_bind {next : Catalog → Change β} (hnext : ∀ catalog, IsAtomic (next catalog)) :
    IsAtomic (get >>= next) := by
  intro catalog error left hrun
  rw [run_get_bind] at hrun
  exact hnext catalog hrun

theorem isAtomic_ofExcept_bind {result : Except CatalogError α} {next : α → Change β}
    (hnext : ∀ value, result = .ok value → IsAtomic (next value)) :
    IsAtomic (ofExcept result >>= next) := by
  cases result with
  | error error => exact isAtomic_throw error
  | ok value => exact hnext value rfl

theorem run_attempt (operation : Catalog → Except CatalogError Catalog) (catalog : Catalog) :
    (attempt operation).run catalog = match operation catalog with
      | .ok result => .ok () result
      | .error error => .error error catalog := by
  show (match operation catalog with
    | .ok result => (set result : Change Unit)
    | .error error => throw error) catalog = _
  cases operation catalog with
  | ok result => rfl
  | error error => rfl

theorem isAtomic_attempt (operation : Catalog → Except CatalogError Catalog) :
    IsAtomic (attempt operation) := by
  intro catalog error left hrun
  rw [run_attempt] at hrun
  split at hrun
  · cases hrun
  · cases hrun
    rfl

theorem run_forM_cons (action : α → Change Unit) (item : α) (rest : List α) (catalog : Catalog) :
    ((item :: rest).forM action).run catalog = match (action item).run catalog with
      | .ok _ middle => (rest.forM action).run middle
      | .error error middle => .error error middle := by
  show (action item >>= fun _ => rest.forM action).run catalog = _
  rw [EStateM.run_bind]
  cases (action item).run catalog with
  | ok value middle => rfl
  | error error middle => rfl

/-- A list of atomic changes that fails does so at one of its items. -/
theorem stopsAt_of_forM {action : α → Change Unit} {items : List α}
    (haction : ∀ item ∈ items, IsAtomic (action item))
    (hrun : (items.forM action).run catalog = .error error left) :
    StopsAt action items catalog error left := by
  induction items generalizing catalog with
  | nil => cases hrun
  | cons item rest ih =>
      rw [run_forM_cons] at hrun
      cases hitem : (action item).run catalog with
      | error found middle =>
          rw [hitem] at hrun
          cases hrun
          obtain rfl := haction item List.mem_cons_self hitem
          exact ⟨[], item, rest, rfl, rfl, hitem⟩
      | ok value middle =>
          rw [hitem] at hrun
          have hrest : ∀ other ∈ rest, IsAtomic (action other) := fun other hother =>
            haction other (List.mem_cons_of_mem _ hother)
          obtain ⟨done, next, others, rfl, hdone, hnext⟩ := ih hrest hrun
          refine ⟨item :: done, next, others, rfl, ?_, hnext⟩
          rw [run_forM_cons, hitem]
          exact hdone

end Change

open Change

/-! ## Changes that are carried out as a whole -/

section Atomic

variable {origin : Origin} {again : String → Change Unit}

theorem isAtomic_dropNamedTable (ifExists : Bool) (name : ObjectName) :
    IsAtomic (dropNamedTable ifExists name) := by
  refine isAtomic_get_bind fun catalog => isAtomic_get_bind fun current => ?_
  split
  · exact isAtomic_pure ()
  · exact isAtomic_attempt _

theorem AlterTable.isAtomic_apply {statement : AlterTable}
    (hoperation : ∀ clauses, statement.operation ≠ .several clauses) :
    IsAtomic (statement.apply origin again) := by
  refine isAtomic_get_bind fun catalog => isAtomic_get_bind fun current => ?_
  split
  · exact isAtomic_pure ()
  refine isAtomic_get_bind fun reached => isAtomic_ofExcept_bind fun table _ => ?_
  split
  · exact isAtomic_attempt _
  · rename_i clauses hclauses
    exact absurd hclauses (hoperation clauses)
  · exact isAtomic_ofExcept_bind fun alterations _ => isAtomic_attempt _

end Atomic

/-! ## The statement made from a clause

Its text may end in semicolons that reading drops, so the text that is read is only a beginning of
it; the two keywords at its start survive. -/

namespace AlterTable

variable {origin : Origin} {name : ObjectName} {clause : String}

/-- Whatever the clause ends in, the text that is read starts with both keywords. -/
theorem words_body_clauseText (name : ObjectName) (clause : String) :
    ∃ others, Text.words (Statement.body (clauseText name clause)) =
      "ALTER" :: "TABLE" :: others := by
  obtain ⟨dropped, happend, hdropped⟩ := Statement.exists_body_append (clauseText name clause)
  have hstart : Chars.trimStart (clauseText name clause).toList =
      "ALTER TABLE".toList ++ ' ' :: (name.text.toList ++ ' ' :: clause.toList) := by
    rw [toList_clauseText]
    rfl
  rw [hstart] at happend
  -- The keywords are not among what is dropped, since they do not end in a blank or semicolon.
  obtain ⟨rest, hbody, hrest⟩ : ∃ rest,
      (Statement.body (clauseText name clause)).toList = "ALTER TABLE".toList ++ rest ∧
        (rest = [] ∨ ∃ others, rest = ' ' :: others) := by
    rcases List.append_eq_append_iff.mp happend with ⟨rest, hbody, hbehind⟩ | ⟨cut, hcut, hmore⟩
    · refine ⟨rest, hbody, ?_⟩
      cases rest with
      | nil => exact Or.inl rfl
      | cons c others =>
          obtain ⟨rfl, -⟩ := List.cons.inj hbehind
          exact Or.inr ⟨others, rfl⟩
    · have hnil : cut = [] := by
        by_contra hne
        have hlast : cut.getLast? = some 'E' := by
          have hwhole : "ALTER TABLE".toList.getLast? = some 'E' := by decide
          rwa [hcut, List.getLast?_append_of_ne_nil _ hne] at hwhole
        have hmem : 'E' ∈ dropped := hmore ▸ List.mem_append_left _ (List.mem_of_getLast? hlast)
        exact absurd (hdropped 'E' hmem) (by decide)
      refine ⟨[], ?_, Or.inl rfl⟩
      rw [hcut, hnil, List.append_nil, List.append_nil]
  have hkeywords : "ALTER TABLE".toList = "ALTER".toList ++ ' ' :: "TABLE".toList := by decide
  rw [Text.words, hbody, hkeywords, List.append_assoc, List.cons_append,
    Chars.words_of_nameChars isNameChar_alter (by decide)]
  rcases hrest with rfl | ⟨others, rfl⟩
  · exact ⟨[], by decide⟩
  · rw [Chars.words_of_nameChars isNameChar_table (by decide)]
    exact ⟨_, rfl⟩

/-- The statement made from a clause is one operation on a table, if it can be read. -/
theorem exists_of_read_clauseText {statement : Statement} (hclause : IsClause clause)
    (hread : Statement.read origin (clauseText name clause) = .ok statement) :
    ∃ nested, statement = .alterTable nested ∧
      ∀ clauses, nested.operation ≠ .several clauses := by
  obtain ⟨others, hwords⟩ := words_body_clauseText name clause
  have hbeginning := Statement.body_beginning (clauseText name clause)
  rw [Statement.read_alterTable hwords] at hread
  generalize Statement.body (clauseText name clause) = body at hbeginning hread
  obtain ⟨nested, hnested, rfl⟩ := except_map_eq_ok.mp hread
  have huncut : Chars.Uncut (· == ',') .top body.toList :=
    Chars.Uncut.of_beginning (Chars.Uncut.trim (uncut_clauseText hclause)) hbeginning
  exact ⟨nested, rfl, ne_several_of_uncut huncut hnested⟩

/-- The statement made from a clause is carried out as a whole or not at all. -/
theorem isAtomic_clauseText (hclause : IsClause clause) :
    IsAtomic (Statement.applyText origin (clauseText name clause)) := by
  unfold Statement.applyText
  refine isAtomic_ofExcept_bind fun statement hread => ?_
  obtain ⟨nested, rfl, hnested⟩ := exists_of_read_clauseText hclause (ofReading_eq_ok.mp hread)
  rw [Statement.apply, Statement.applyNested]
  exact isAtomic_apply hnested

end AlterTable

namespace Catalog

/-- An enum type can be created in a schema that exists and has none of its name. -/
theorem exists_addEnum {catalog : Catalog} {name : String} (hschema : catalog.hasSchema name = true)
    (enumType : EnumType) (hnone : catalog.enum? name enumType.name = none) :
    ∃ result, catalog.addEnum name enumType = .ok result := by
  obtain ⟨holder, hholder⟩ := Option.isSome_iff_exists.mp hschema
  rw [enum?, hholder] at hnone
  have hfree : holder.enums.contains enumType.name = false := by
    rw [NameMap.contains, show holder.enums.find? enumType.name = none from hnone]
    rfl
  rw [addEnum, schema, hholder, except_ok_bind, if_neg (by simp [hfree])]
  exact ⟨_, rfl⟩

theorem hasSchema_ensureSchema (catalog : Catalog) (name : String) :
    (catalog.ensureSchema name).hasSchema name = true := by
  rw [ensureSchema]
  split
  · assumption
  · rw [hasSchema, NameMap.contains, NameMap.find?_insert, if_pos rfl]
    rfl

end Catalog

/-! ## Rejected statements -/

namespace Statement

variable {origin : Origin} {catalog left : Catalog} {error : CatalogError}

/-- What a rejected statement leaves.  A table that is not created may leave its schema behind, new
and empty; operations on a table and tables to drop are dealt with in order up to the first failure;
no statement of another kind is rejected. -/
def Remains (origin : Origin) (catalog : Catalog) (error : CatalogError) (left : Catalog) :
    Statement → Prop
  | createTable statement =>
      left = catalog ∨
        catalog.createSchema (statement.name.schemaOr catalog.defaultSchema) = .ok left
  | alterTable ⟨name, _, .several clauses⟩ =>
      catalog.table? (name.schemaOr catalog.defaultSchema) name.base = none ∧ left = catalog ∨
        StopsAt (fun clause => applyText origin (AlterTable.clauseText name clause)) clauses
          catalog error left
  | alterTable _ => left = catalog
  | dropTables removal => StopsAt (dropNamedTable removal.ifExists) removal.names catalog error left
  | _ => False

theorem remains_of_createTable {statement : CreateTable}
    (hrun : (statement.apply origin).run catalog = .error error left) :
    left = catalog ∨
      catalog.createSchema (statement.name.schemaOr catalog.defaultSchema) = .ok left := by
  rw [CreateTable.apply, run_get_bind, run_modify_bind] at hrun
  -- Behind the schema nothing is written unless the table is.
  have hleft : left = catalog.ensureSchema (statement.name.schemaOr catalog.defaultSchema) := by
    refine isAtomic_get_bind (fun current => ?_) hrun
    split
    · exact isAtomic_pure ()
    · exact isAtomic_ofExcept_bind fun table _ => isAtomic_attempt _
  rw [hleft, Catalog.ensureSchema, Catalog.createSchema]
  split
  · exact Or.inl rfl
  · exact Or.inr rfl

theorem not_rejected_createEnum (statement : CreateEnum) :
    (statement.apply origin).run catalog ≠ .error error left := by
  intro hrun
  rw [CreateEnum.apply, run_get_bind, run_modify_bind, run_get_bind] at hrun
  split at hrun
  · cases hrun
  · rename_i hnone
    obtain ⟨result, hresult⟩ := Catalog.exists_addEnum
      (Catalog.hasSchema_ensureSchema catalog (statement.name.schemaOr catalog.defaultSchema))
      ⟨statement.name.base, statement.values, origin.file⟩ (by simpa using hnone)
    rw [run_attempt, hresult] at hrun
    cases hrun

/-- Several operations on a table stop at the first that fails, if there is a table. -/
theorem remains_of_several {name : ObjectName} {guard : Bool} {clauses : List String}
    (hclauses : ∀ clause ∈ clauses, AlterTable.IsClause clause)
    (hrun : ((alterTable ⟨name, guard, .several clauses⟩).apply origin).run catalog =
      .error error left) :
    catalog.table? (name.schemaOr catalog.defaultSchema) name.base = none ∧ left = catalog ∨
      StopsAt (fun clause => applyText origin (AlterTable.clauseText name clause)) clauses
        catalog error left := by
  have hagain : ∀ clause ∈ clauses, (do
      let nested ← Change.ofExcept (Change.ofReading
        (read origin (AlterTable.clauseText name clause)))
      applyNested origin 1 nested) = applyText origin (AlterTable.clauseText name clause) :=
    fun clause hclause =>
      AlterTable.applyNested_clauseText_eq (hclauses clause hclause) 1 nestingDepth
  rw [apply, nestingDepth, applyNested, AlterTable.apply] at hrun
  dsimp only at hrun
  rw [Change.forM_congr hagain, run_get_bind, run_get_bind] at hrun
  split at hrun
  · cases hrun
  rw [run_get_bind, Catalog.table] at hrun
  split at hrun
  · exact Or.inr (stopsAt_of_forM (fun clause hclause =>
      AlterTable.isAtomic_clauseText (hclauses clause hclause)) hrun)
  · rename_i hnone
    exact Or.inl ⟨hnone, isAtomic_throw _ hrun⟩

theorem remains_of_apply {text : String} {statement : Statement}
    (hread : read origin text = .ok statement)
    (hrejected : (statement.apply origin).run catalog = .error error left) :
    statement.Remains origin catalog error left := by
  cases statement with
  | createTable statement =>
      rw [apply, applyNested] at hrejected
      exact remains_of_createTable hrejected
  | alterTable statement =>
      obtain ⟨name, guard, operation⟩ := statement
      cases operation with
      -- only a statement of several clauses can stop halfway
      | several clauses =>
          have hclauses : ∀ clause ∈ clauses, AlterTable.IsClause clause := fun clause hclause =>
            AlterTable.isClause_of_read hread hclause
          exact remains_of_several hclauses hrejected
      | _ =>
          rw [apply, applyNested] at hrejected
          exact AlterTable.isAtomic_apply (fun _ => Operation.noConfusion) hrejected
  | dropTables removal =>
      rw [apply, applyNested] at hrejected
      exact stopsAt_of_forM (fun name _ => isAtomic_dropNamedTable _ name) hrejected
  | createEnum statement =>
      rw [apply, applyNested] at hrejected
      exact not_rejected_createEnum statement hrejected
  | _ =>
      rw [apply, applyNested] at hrejected
      cases hrejected

/-- What a rejected text leaves: one that cannot be read changes nothing, and any other leaves what
its statement leaves. -/
theorem remains_of_rejected {text : String}
    (hrejected : (applyText origin text).run catalog = .error error left) :
    (∀ fault, read origin text = .error fault → left = catalog) ∧
      ∀ statement, read origin text = .ok statement →
        statement.Remains origin catalog error left := by
  unfold applyText at hrejected
  constructor
  · intro fault hread
    rw [hread, ofReading_error_bind] at hrejected
    exact isAtomic_throw _ hrejected
  · intro statement hread
    rw [hread, ofReading_ok_bind] at hrejected
    exact remains_of_apply hread hrejected

/-- A catalog with one table of one column. -/
def oneColumn : Catalog :=
  (applyText ⟨"1.sql", .postgres⟩ "CREATE TABLE t (a text)").after (.new "public")

/-- The same with a second column. -/
def twoColumns : Catalog :=
  (applyText ⟨"2.sql", .postgres⟩ "ALTER TABLE t ADD b text").after oneColumn

/-- A second clause that fails leaves the column that the first one added. -/
theorem remains_of_rejected_second_clause :
    (applyText ⟨"2.sql", .postgres⟩ "ALTER TABLE t ADD b text, DROP c").run oneColumn =
      .error (.columnNotFound "public" "t" "c") twoColumns ∧
    twoColumns ≠ oneColumn ∧
    StopsAt
      (fun clause => applyText ⟨"2.sql", .postgres⟩ (AlterTable.clauseText ⟨none, "t"⟩ clause))
      ["ADD b text", "DROP c"] oneColumn (.columnNotFound "public" "t" "c") twoColumns := by
  have hread : read ⟨"2.sql", .postgres⟩ "ALTER TABLE t ADD b text, DROP c" =
      .ok (.alterTable ⟨⟨none, "t"⟩, false, .several ["ADD b text", "DROP c"]⟩) := by
    decide +kernel
  have hrejected :
      (applyText ⟨"2.sql", .postgres⟩ "ALTER TABLE t ADD b text, DROP c").run oneColumn =
      .error (.columnNotFound "public" "t" "c") twoColumns := by
    decide +kernel
  have hchanged : twoColumns ≠ oneColumn := by decide +kernel
  have hremains := (remains_of_rejected hrejected).2 _ hread
  exact ⟨hrejected, hchanged, hremains.resolve_left fun hmissing => hchanged hmissing.2⟩

end Statement

end Schemata
