import Schemata.Proofs.Catalog.Integrity
import Schemata.Proofs.Rejection
import Schemata.Proofs.Statement.ColumnDeclaration

/-!
# Declared enum types

An enum type is declared by `CREATE TYPE`, its printed name and its values as literals in
parentheses.  Every value is in quotes with the quotes in it doubled, so that whatever it holds the
literal is one clause of the list and the list one word of the statement.

The statement is read word by word: four keywords around the name, and the list as a group.  Behind
a comma there may be spaces, which are trimmed.  Nothing is asked of the values: one may be empty,
repeat another or hold parts of a group, and there may be none.

* `CreateEnum.reads_readWords`: the words of the declaration are read as the type that is declared.
* `CreateEnum.exists_run_apply`: a new type is found under its name, and nothing else changes.
* `CreateEnum.read_text_and_register`: both, from the text of the declaration on.
-/

namespace Schemata

/-- Whatever a literal holds, it is read back from its quotes. -/
theorem Text.unquoteLiteral?_quoted (value : String) :
    unquoteLiteral? (quoted '\x27' value) = some value := by
  have hwhole : Chars.Whole (Chars.quoted '\x27' value.toList) :=
    Chars.whole_quoted rfl value.toList
  rw [unquoteLiteral?, quoted, String.toList_ofList, Chars.unquoteLiteral?, hwhole.trim_eq,
    Chars.quoted, Chars.between?_append]
  simp [Chars.undouble_double]

namespace Catalog

variable {catalog after : Catalog} {schema : String} {enumType : EnumType}

theorem enum?_of_addEnum (hadd : catalog.addEnum schema enumType = .ok after)
    (hschema : catalog.hasSchema schema = true) (query name : String) :
    after.enum? query name =
      if query = schema ∧ name = enumType.name then some enumType
      else catalog.enum? query name := by
  obtain rfl := eq_of_addEnum hadd
  rw [hasSchema_eq_isSome_outline?] at hschema
  obtain ⟨outline, houtline⟩ := Option.isSome_iff_exists.mp hschema
  rw [enum?_eq_outline?, enum?_eq_outline?, outline?_changeEnums]
  by_cases hquery : query = schema
  · subst hquery
    simp [houtline, NameMap.find?_insert]
  · simp [hquery]

end Catalog

namespace CreateEnum

/-- The values as literals, with some spaces behind each comma. -/
def list (statement : CreateEnum) (spaces : Nat) : String :=
  Text.listed spaces (statement.values.map (Text.quoted '\x27'))

def words (statement : CreateEnum) (spaces : Nat) : List String :=
  ["CREATE", "TYPE", statement.name.text, "AS", "ENUM", "(" ++ statement.list spaces ++ ")"]

/-- The declaration as text. -/
def text (statement : CreateEnum) (spaces : Nat) : String :=
  Text.unwords (statement.words spaces)

variable (statement : CreateEnum) (spaces : Nat)

/-! ## The text -/

theorem isWord_of_mem_values {literal : String}
    (hliteral : literal ∈ statement.values.map (Text.quoted '\x27')) :
    Chars.IsWord literal.toList := by
  obtain ⟨value, -, rfl⟩ := List.mem_map.mp hliteral
  exact Text.isWord_quoted rfl value

theorem balanced_list : Chars.Balanced (statement.list spaces).toList :=
  Text.balanced_listed spaces fun _ hliteral =>
    (statement.isWord_of_mem_values hliteral).toBalanced

/-- The clauses of the list are the literals, one for each value. -/
theorem clauses_list :
    Text.clauses (statement.list spaces) = statement.values.map (Text.quoted '\x27') :=
  Text.clauses_listed spaces fun _ hliteral => (statement.isWord_of_mem_values hliteral).isListed

theorem isWord_of_mem {word : String} (hword : word ∈ statement.words spaces) :
    Chars.IsWord word.toList := by
  have hcases : word ∈ ["CREATE", "TYPE", "AS", "ENUM"] ∨ word = statement.name.text ∨
      word = "(" ++ statement.list spaces ++ ")" := by
    simp only [words, List.mem_cons, List.not_mem_nil, or_false] at hword ⊢
    grind
  have hkeywords : ∀ keyword ∈ ["CREATE", "TYPE", "AS", "ENUM"],
      Chars.IsNameWord keyword.toList := by decide
  rcases hcases with hkeyword | rfl | rfl
  · exact (hkeywords word hkeyword).isWord
  · exact statement.name.isWord_text
  · exact Text.isWord_group (statement.balanced_list spaces)

theorem words_text : Text.words (statement.text spaces) = statement.words spaces :=
  Text.words_unwords fun _ hword => statement.isWord_of_mem spaces hword

theorem isListed_text : Chars.IsListed (statement.text spaces).toList :=
  Text.isListed_unwords (fun _ hword => statement.isWord_of_mem spaces hword)
    (List.cons_ne_nil _ _)

theorem getLast?_text : (statement.text spaces).toList.getLast? = some ')' := by
  have hgroup := Text.toList_group (statement.list spaces)
  have hwords : statement.words spaces = ["CREATE", "TYPE", statement.name.text, "AS", "ENUM"] ++
      ["(" ++ statement.list spaces ++ ")"] := rfl
  rw [text, hwords, Text.getLast?_unwords_concat _ (by rw [hgroup]; exact List.cons_ne_nil _ _),
    hgroup, ← List.cons_append, List.getLast?_concat]

/-! ## Reading -/

/-- `AS ENUM` stands behind the name, whatever word the name is. -/
theorem ofWords?_words :
    Statement.Kind.ofWords? (statement.words spaces) = some .createEnum := by
  have hpair : Text.isKeyword "AS" "as" = true ∧ Text.isKeyword "ENUM" "enum" = true := by decide
  have hdefines : Statement.definesEnum (statement.words spaces).tail = true := by
    simp [words, Statement.definesEnum, hpair]
  have hkind : Statement.Kind.ofWords? (statement.words spaces) =
      if Statement.definesEnum (statement.words spaces).tail then some .createEnum else none := rfl
  rw [hkind, if_pos hdefines]

theorem readValue_quoted (value : String) : readValue (Text.quoted '\x27' value) = pure value := by
  rw [readValue, Text.unquoteLiteral?_quoted]

theorem reads_readWords :
    Reading.Reads readWords (statement.words spaces) statement [] := by
  have hnone : Text.group? "ENUM" = none := by decide
  have hopen : ("(" ++ statement.list spaces ++ ")").toList.head? = some '(' := by
    rw [Text.toList_group]
    rfl
  have hgroup := Text.group?_group (statement.balanced_list spaces)
  -- the list is cut at its commas, and each literal is read on its own
  have hvalues : Reading.Reads ((Text.clauses (statement.list spaces)).mapM readValue) []
      statement.values [] := by
    have hgiven := Reading.reads_mapM (fun value => Reading.reads_pure value []) statement.values
    rw [List.map_id'] at hgiven
    rw [clauses_list, List.mapM_map]
    simpa only [Function.comp_def, readValue_quoted] using hgiven
  refine (Reading.reads_expectKeyword (by decide) _).discard.bind ?_
  refine (Reading.reads_expectKeyword (by decide) _).discard.bind ?_
  refine (Reading.reads_expectWord _ _ _).bind ?_
  refine (Reading.reads_expectKeyword (by decide) _).discard.bind ?_
  refine (Reading.reads_expectKeyword (by decide) _).bind ?_
  refine (Reading.reads_expectGroup hnone hopen hgroup _ []).bind ?_
  refine Reading.reads_expectEnd.bind ?_
  refine hvalues.bind ?_
  rw [ObjectName.read_text]
  exact Reading.reads_pure statement []

theorem read_text (origin : Origin) :
    Statement.read origin (statement.text spaces) = .ok (.createEnum statement) := by
  have hkind : Statement.Kind.ofWords? (Text.words (statement.text spaces)) = some .createEnum := by
    rw [words_text]
    exact statement.ofWords?_words spaces
  have hend : (statement.text spaces).toList.getLast? ≠ some ';' := by
    rw [getLast?_text]
    decide
  have hread : CreateEnum.read origin (statement.text spaces) = .ok statement := by
    have hreads := statement.reads_readWords spaces
    rw [← words_text] at hreads
    exact hreads.ofText origin.file
  rw [Statement.read_eq (statement.isListed_text spaces).toTrimmed hend hkind, Statement.readKind,
    hread]
  rfl

/-! ## The effect -/

/-- A type that is new to its schema is found there afterwards, and nothing else changes. -/
theorem exists_run_apply (origin : Origin) {catalog : Catalog}
    (hnew : catalog.enum? (statement.name.schemaOr catalog.defaultSchema) statement.name.base =
      none) :
    ∃ after, ((Statement.createEnum statement).apply origin).run catalog = .ok () after ∧
      (∀ schema name, after.enum? schema name =
        if schema = statement.name.schemaOr catalog.defaultSchema ∧ name = statement.name.base then
          some ⟨statement.name.base, statement.values, origin.file⟩
        else catalog.enum? schema name) ∧
      ∀ schema name, after.table? schema name = catalog.table? schema name := by
  generalize hholder : statement.name.schemaOr catalog.defaultSchema = holder at hnew
  have hschema := Catalog.hasSchema_ensureSchema catalog holder
  have hfree : (catalog.ensureSchema holder).enum? holder statement.name.base = none := by
    rw [Catalog.enum?_ensureSchema, hnew]
  obtain ⟨after, hafter⟩ := Catalog.exists_addEnum hschema
    ⟨statement.name.base, statement.values, origin.file⟩ hfree
  refine ⟨after, ?_, fun schema name => ?_, fun schema name => ?_⟩
  · rw [Statement.apply, Statement.nestingDepth, Statement.applyNested, CreateEnum.apply,
      Change.run_get_bind, Change.run_modify_bind, Change.run_get_bind, hholder, hfree,
      if_neg (by decide), Change.run_attempt, hafter]
  · rw [Catalog.enum?_of_addEnum hafter hschema, Catalog.enum?_ensureSchema]
  · rw [Catalog.eq_of_addEnum hafter, Catalog.table?_changeEnums, Catalog.table?_ensureSchema]

/-- A declared enum type is read as the type that is declared, the values in order, and carrying it
out makes a new type of it under its name. -/
theorem read_text_and_register (origin : Origin) :
    Statement.read origin (statement.text spaces) = .ok (.createEnum statement) ∧
    ∀ catalog : Catalog,
      catalog.enum? (statement.name.schemaOr catalog.defaultSchema) statement.name.base = none →
        ∃ after, ((Statement.createEnum statement).apply origin).run catalog = .ok () after ∧
          (∀ schema name, after.enum? schema name =
            if schema = statement.name.schemaOr catalog.defaultSchema ∧
                name = statement.name.base then
              some ⟨statement.name.base, statement.values, origin.file⟩
            else catalog.enum? schema name) ∧
          ∀ schema name, after.table? schema name = catalog.table? schema name :=
  ⟨statement.read_text spaces origin, fun _ hnew => statement.exists_run_apply origin hnew⟩

/-- A type named as a word of its declaration, with values that hold quotes, separators and parts of
groups, one of them twice and one empty. -/
def moods : CreateEnum where
  name := ⟨some "app.v2", "as"⟩
  values := ["", "it\x27s", "so), (so", "\x22;\n\x60[", "it\x27s"]

/-- The text of the declaration. -/
def moodsText : String :=
  "CREATE TYPE \x22app.v2\x22.as AS ENUM (\x27\x27, \x27it\x27\x27s\x27, " ++
    "\x27so), (so\x27, \x27\x22;\n\x60[\x27, \x27it\x27\x27s\x27)"

theorem read_text_and_register_moods :
    Statement.read ⟨"1.sql", .postgres⟩ moodsText = .ok (.createEnum moods) ∧
    (Catalog.new "public").enum? "app.v2" "as" = none ∧
    ∃ after, ((Statement.createEnum moods).apply ⟨"1.sql", .postgres⟩).run (.new "public") =
        .ok () after ∧
      after.enum? "app.v2" "as" =
        some ⟨"as", ["", "it\x27s", "so), (so", "\x22;\n\x60[", "it\x27s"], "1.sql"⟩ := by
  have htext : moods.text 1 = moodsText := by decide +kernel
  have hnew : (Catalog.new "public").enum? "app.v2" "as" = none := by decide +kernel
  obtain ⟨hread, hregister⟩ := moods.read_text_and_register 1 ⟨"1.sql", .postgres⟩
  obtain ⟨after, hrun, henum, -⟩ := hregister (.new "public") hnew
  rw [htext] at hread
  exact ⟨hread, hnew, after, hrun, (henum "app.v2" "as").trans (if_pos ⟨rfl, rfl⟩)⟩

end CreateEnum

end Schemata
