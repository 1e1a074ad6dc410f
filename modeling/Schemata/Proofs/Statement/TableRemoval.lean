import Schemata.Proofs.ObjectName
import Schemata.Proofs.Outcome
import Schemata.Proofs.Reader
import Schemata.Proofs.Statement.Body

/-!
# Removed tables

Tables are removed by `DROP TABLE`, their printed names in a list and a last word.  The commas of
the list stay on the words: with spaces behind them every word but the last ends in one, and without
spaces the whole list is one word.  The reader puts the words back together, which leaves at most
one space behind each comma, and takes the clauses of that.

* `Text.unwords_words_listed`: putting the words of a list together gives the list again, with no
  more than one space behind each comma.
* `Removal.not_startWithKeywords`: the first name is not taken for a guard.
* `Removal.read_text_and_names`: the statement is read as the removal that is printed.
-/

namespace Schemata

namespace Chars

variable {names : List (List Char)}

/-- Without spaces a list of words is one word. -/
theorem words_listed_zero (hnames : ∀ name ∈ names, IsWord name) (hne : names ≠ []) :
    words ([','].intercalate names) = [[','].intercalate names] := by
  have hword : Uncut isBlank .top ([','].intercalate names) ∧ [','].intercalate names ≠ [] := by
    induction names with
    | nil => exact absurd rfl hne
    | cons name rest ih =>
        have hname : IsWord name := hnames name List.mem_cons_self
        cases rest with
        | nil =>
            rw [List.intercalate_singleton]
            exact ⟨hname.uncut_blank, hname.ne_nil⟩
        | cons next others =>
            obtain ⟨huncut, -⟩ := ih (fun other hother =>
              hnames other (List.mem_cons_of_mem name hother)) (List.cons_ne_nil next others)
            rw [List.intercalate_cons_cons, List.append_assoc, uncut_append, hname.run_top]
            exact ⟨⟨hname.uncut_blank, rfl, huncut⟩,
              List.append_ne_nil_of_left_ne_nil hname.ne_nil _⟩
  rw [words, pieces_of_uncut hword.1]
  simp [hword.2]

/-- With spaces the comma stays on the word in front of it. -/
theorem words_listed_succ {name : List Char} (hname : IsWord name) (hne : names ≠ [])
    (spaces : Nat) :
    words ((',' :: List.replicate (spaces + 1) ' ').intercalate (name :: names)) =
      (name ++ [',']) :: words ((',' :: List.replicate (spaces + 1) ' ').intercalate names) := by
  have huncut : Uncut isBlank .top (name ++ [',']) := by
    rw [uncut_append, hname.run_top]
    exact ⟨hname.uncut_blank, rfl, trivial⟩
  have hrun : Nesting.top.run (name ++ [',']) = .top := by
    rw [Nesting.run_append, hname.run_top]
    rfl
  have hspaces : ∀ c ∈ List.replicate spaces ' ', isBlank c = true := by
    intro c hc
    obtain rfl := List.eq_of_mem_replicate hc
    decide
  have hsplit : (',' :: List.replicate (spaces + 1) ' ').intercalate (name :: names) =
      (name ++ [',']) ++ ' ' :: (List.replicate spaces ' ' ++
        (',' :: List.replicate (spaces + 1) ' ').intercalate names) := by
    rw [List.intercalate_cons_of_ne_nil hne, List.replicate_succ]
    simp only [List.append_assoc, List.cons_append, List.nil_append]
  rw [hsplit, words_append_cons huncut hrun (List.append_ne_nil_of_left_ne_nil hname.ne_nil _) rfl,
    words_append_of_blank hspaces]

/-- A list is one word, or its first word ends in a comma. -/
theorem words_listed_cases (hnames : ∀ name ∈ names, IsWord name) (hne : names ≠ [])
    (spaces : Nat) :
    (∃ word, words ((',' :: List.replicate spaces ' ').intercalate names) = [word]) ∨
      ∃ name ∈ names, ∃ others,
        words ((',' :: List.replicate spaces ' ').intercalate names) =
          (name ++ [',']) :: others := by
  cases spaces with
  | zero => exact Or.inl ⟨_, words_listed_zero hnames hne⟩
  | succ spaces =>
      obtain ⟨name, rest, rfl⟩ := List.exists_cons_of_ne_nil hne
      have hname : IsWord name := hnames name List.mem_cons_self
      by_cases hrest : rest = []
      · subst hrest
        exact Or.inl ⟨name, by rw [List.intercalate_singleton, hname.words_eq]⟩
      · exact Or.inr ⟨name, List.mem_cons_self, _, words_listed_succ hname hrest spaces⟩

/-- The words of a list, put together again, list the same names with at most one space behind each
comma. -/
theorem intercalate_words_listed (hnames : ∀ name ∈ names, IsWord name) (spaces : Nat) :
    [' '].intercalate (words ((',' :: List.replicate spaces ' ').intercalate names)) =
      (',' :: List.replicate (min spaces 1) ' ').intercalate names := by
  -- without spaces the whole list is one word
  cases spaces with
  | zero =>
      by_cases hne : names = []
      · subst hne
        rfl
      · exact (congrArg _ (words_listed_zero hnames hne)).trans List.intercalate_singleton
  | succ spaces =>
      -- with spaces every name but the last is a word with its comma, and a blank is put behind
      -- each
      rw [Nat.min_eq_right (Nat.succ_le_succ (Nat.zero_le spaces))]
      induction names with
      | nil => rfl
      | cons name rest ih =>
          have hname : IsWord name := hnames name List.mem_cons_self
          have hothers : ∀ other ∈ rest, IsWord other := fun other hother =>
            hnames other (List.mem_cons_of_mem name hother)
          by_cases hne : rest = []
          · subst hne
            rw [List.intercalate_singleton, List.intercalate_singleton, hname.words_eq,
              List.intercalate_singleton]
          · have hwords :
                words ((',' :: List.replicate (spaces + 1) ' ').intercalate rest) ≠ [] := by
              rcases words_listed_cases hothers hne (spaces + 1) with
                ⟨word, hword⟩ | ⟨first, -, others, hfirst⟩
              · rw [hword]
                exact List.cons_ne_nil _ _
              · rw [hfirst]
                exact List.cons_ne_nil _ _
            rw [words_listed_succ hname hne, List.intercalate_cons_of_ne_nil hwords, ih hothers,
              List.intercalate_cons_of_ne_nil hne]
            simp

end Chars

namespace Text

variable {names : List String}

/-- The words of a list, put together again, list the same names with at most one space behind each
comma. -/
theorem unwords_words_listed (hnames : ∀ name ∈ names, Chars.IsWord name.toList) (spaces : Nat) :
    unwords (words (listed spaces names)) = listed (min spaces 1) names := by
  have hwords : (words (listed spaces names)).map String.toList =
      Chars.words ((',' :: List.replicate spaces ' ').intercalate (names.map String.toList)) := by
    rw [words, toList_listed, List.map_map]
    simp [Function.comp_def]
  rw [← String.toList_inj, toList_unwords, hwords, toList_listed,
    Chars.intercalate_words_listed (List.forall_mem_map.mpr hnames)]

theorem words_listed_cases (hnames : ∀ name ∈ names, Chars.IsWord name.toList) (hne : names ≠ [])
    (spaces : Nat) :
    (∃ word, words (listed spaces names) = [word]) ∨
      ∃ name ∈ names, ∃ others, words (listed spaces names) = (name ++ ",") :: others := by
  have hcomma : ",".toList = [','] := by decide
  have hne : names.map String.toList ≠ [] := by simpa using hne
  rw [words, toList_listed]
  rcases Chars.words_listed_cases (List.forall_mem_map.mpr hnames) hne spaces with
    ⟨word, hword⟩ | ⟨chars, hchars, others, hothers⟩
  · exact Or.inl ⟨String.ofList word, by rw [hword]; rfl⟩
  · obtain ⟨name, hname, rfl⟩ := List.mem_map.mp hchars
    refine Or.inr ⟨name, hname, others.map String.ofList, ?_⟩
    rw [hothers, List.map_cons, ← hcomma, ← String.toList_append, String.ofList_toList]

end Text

namespace Removal

/-- The names in a list, with some spaces behind each comma. -/
def list (removal : Removal ObjectName) (spaces : Nat) : String :=
  Text.listed spaces (removal.names.map ObjectName.text)

/-- The last word, which says what becomes of dependent objects. -/
def behavior (removal : Removal ObjectName) : String :=
  if removal.cascade then "CASCADE" else "RESTRICT"

/-- The words in front of the names. -/
def header (removal : Removal ObjectName) : List String :=
  "DROP" :: "TABLE" :: if removal.ifExists then ["IF", "EXISTS"] else []

/-- The statement that removes tables, as text. -/
def text (removal : Removal ObjectName) (spaces : Nat) : String :=
  Text.unwords (removal.header ++ [removal.list spaces] ++ [removal.behavior])

variable (removal : Removal ObjectName) (spaces : Nat)

/-! ## The text -/

theorem isWord_of_mem_names {name : String} (hname : name ∈ removal.names.map ObjectName.text) :
    Chars.IsWord name.toList := by
  obtain ⟨object, -, rfl⟩ := List.mem_map.mp hname
  exact object.isWord_text

theorem isWord_of_mem {word : String} (hword : word ∈ removal.header ++ [removal.behavior]) :
    Chars.IsWord word.toList := by
  have hkeyword : word ∈ ["DROP", "TABLE", "IF", "EXISTS", "CASCADE", "RESTRICT"] := by
    grind [header, behavior]
  have hkeywords : ∀ keyword ∈ ["DROP", "TABLE", "IF", "EXISTS", "CASCADE", "RESTRICT"],
      Chars.IsNameWord keyword.toList := by decide
  exact (hkeywords word hkeyword).isWord

theorem isWord_behavior : Chars.IsWord removal.behavior.toList :=
  removal.isWord_of_mem (List.mem_append_right _ List.mem_cons_self)

theorem balanced_list : Chars.Balanced (removal.list spaces).toList :=
  Text.balanced_listed spaces fun _ hname => (removal.isWord_of_mem_names hname).toBalanced

/-- The list may be several words; all others are one each. -/
theorem words_text : Text.words (removal.text spaces) =
    removal.header ++ (Text.words (removal.list spaces) ++ [removal.behavior]) := by
  have hheader : removal.header.flatMap Text.words = removal.header.flatMap fun word => [word] :=
    List.flatMap_congr fun word hword =>
      Text.words_of_isWord (removal.isWord_of_mem (List.mem_append_left _ hword))
  have hbalanced : ∀ part ∈ removal.header ++ [removal.list spaces] ++ [removal.behavior],
      Chars.Balanced part.toList := by
    intro part hpart
    by_cases hlist : part = removal.list spaces
    · exact hlist ▸ removal.balanced_list spaces
    · exact (removal.isWord_of_mem (by grind)).toBalanced
  rw [text, Text.words_unwords_of_balanced hbalanced, List.flatMap_append, List.flatMap_append,
    hheader, List.flatMap_singleton, List.flatMap_singleton,
    Text.words_of_isWord removal.isWord_behavior]
  simp

theorem trimmed_text : Chars.Trimmed (removal.text spaces).toList :=
  Text.trimmed_unwords (removal.isWord_of_mem List.mem_cons_self) removal.isWord_behavior _

theorem getLast?_text : (removal.text spaces).toList.getLast? ≠ some ';' := by
  rw [text, Text.getLast?_unwords_concat _ removal.isWord_behavior.ne_nil, behavior]
  split <;> decide

/-! ## Reading -/

/-- A table named `if` is not taken for a guard: it has a comma behind it or the last word. -/
theorem not_startWithKeywords (hnames : removal.names ≠ []) :
    Text.startWithKeywords (Text.words (removal.list spaces) ++ [removal.behavior])
      ["if", "exists"] = false := by
  have hlast : Text.isKeyword removal.behavior "exists" = false := by
    rw [behavior]
    split <;> decide
  rcases Text.words_listed_cases (fun _ hname => removal.isWord_of_mem_names hname)
    (by simpa using hnames) spaces with ⟨word, hword⟩ | ⟨name, hname, others, hfirst⟩
  · rw [list, hword]
    simp [Text.startWithKeywords, hlast]
  · obtain ⟨object, -, rfl⟩ := List.mem_map.mp hname
    have hcomma : Text.isKeyword (object.text ++ ",") "if" = false :=
      object.isKeyword_text_comma (by decide)
    rw [list, hfirst]
    simp [Text.startWithKeywords, hcomma]

theorem reads_nameList (hnames : removal.names ≠ []) (what : String) :
    Reading.Reads (Reading.nameList what) (Text.words (removal.list spaces) ++ [removal.behavior])
      (removal.names.map ObjectName.text, removal.cascade) [] := by
  have hcascade : Text.isKeyword removal.behavior "cascade" = removal.cascade := by
    rw [behavior]
    cases removal.cascade <;> decide
  have hrestrict : Text.isKeyword removal.behavior "restrict" = !removal.cascade := by
    rw [behavior]
    cases removal.cascade <;> decide
  have hclauses : Text.clauses (Text.unwords (Text.words (removal.list spaces))) =
      removal.names.map ObjectName.text := by
    rw [list, Text.unwords_words_listed fun _ hname => removal.isWord_of_mem_names hname]
    exact Text.clauses_listed _ fun _ hname => (removal.isWord_of_mem_names hname).isListed
  refine (Reading.reads_rest _).bind ?_
  simp only [List.getLast?_concat, Option.any_some, hcascade, hrestrict, Bool.or_not_self, if_true,
    List.dropLast_concat, hclauses]
  split
  · rename_i hnil
    exact absurd (List.map_eq_nil_iff.mp hnil) hnames
  · exact Reading.reads_pure _ []

theorem reads_words (hnames : removal.names ≠ []) :
    Reading.Reads (do expectKind "table"; readNames ObjectName.read "table name")
      (Text.words (removal.text spaces)) removal [] := by
  have hkeywords : Text.isKeyword "IF" "if" = true ∧ Text.isKeyword "EXISTS" "exists" = true := by
    decide
  have hguard : Text.startWithKeywords (["IF", "EXISTS"] ++
      (Text.words (removal.list spaces) ++ [removal.behavior])) ["if", "exists"] = true := by
    simp [Text.startWithKeywords, hkeywords]
  have hread : (removal.names.map ObjectName.text).map ObjectName.read = removal.names := by
    simp [Function.comp_def, ObjectName.read_text]
  rw [words_text, header]
  refine Reading.Reads.bind ((Reading.reads_expectKeyword (by decide) _).discard.bind
    (Reading.reads_expectKeyword (by decide) _).discard) ?_
  refine (Reading.reads_acceptAll_of_optional removal.ifExists hguard rfl
    (removal.not_startWithKeywords spaces hnames)).bind ?_
  refine (removal.reads_nameList spaces hnames _).bind ?_
  dsimp only
  rw [hread]
  exact Reading.reads_pure removal []

/-- A printed removal is read as the removal: the names in order, the guard and the last word.  Each
printed name is one word and one clause, and is read back. -/
theorem read_text_and_names (origin : Origin) (hnames : removal.names ≠ []) :
    Statement.read origin (removal.text spaces) = .ok (.dropTables removal) ∧
    ∀ name : ObjectName, Text.words name.text = [name.text] ∧
      Text.clauses name.text = [name.text] ∧ ObjectName.read name.text = name := by
  refine ⟨?_, fun name => ⟨Text.words_of_isWord name.isWord_text,
    Text.clauses_of_isListed name.isWord_text.isListed, name.read_text⟩⟩
  have hkind : Statement.Kind.ofWords? (Text.words (removal.text spaces)) = some .dropTables := by
    rw [words_text, header, List.cons_append, List.cons_append]
    generalize (if removal.ifExists then ["IF", "EXISTS"] else []) ++ _ = behind
    cases behind <;> rfl
  have hread : Removal.readTables origin (removal.text spaces) = .ok removal :=
    (removal.reads_words spaces hnames).ofText origin.file
  rw [Statement.read_eq (removal.trimmed_text spaces) (removal.getLast?_text spaces) hkind,
    Statement.readKind, hread]
  rfl

/-- Tables named as words of the statement, with an empty schema, an empty name and one that holds a
quote and separators. -/
def keywordTables : Removal ObjectName where
  names := [⟨none, "if"⟩, ⟨some "", "exists"⟩, ⟨none, ""⟩, ⟨none, "a\x22b, c.d "⟩,
    ⟨none, "cascade"⟩]
  ifExists := false
  cascade := false

theorem read_text_and_names_keywords :
    keywordTables.names ≠ [] ∧
    Statement.read ⟨"1.sql", .sqlite⟩
        ("DROP TABLE if,  \x22\x22.exists,  \x22\x22,  " ++
          "\x22a\x22\x22b, c.d \x22,  cascade RESTRICT") =
      .ok (.dropTables keywordTables) := by
  have hnames : keywordTables.names ≠ [] := by decide
  have htext : keywordTables.text 2 = "DROP TABLE if,  \x22\x22.exists,  \x22\x22,  " ++
      "\x22a\x22\x22b, c.d \x22,  cascade RESTRICT" := by decide +kernel
  obtain ⟨hread, -⟩ := keywordTables.read_text_and_names 2 ⟨"1.sql", .sqlite⟩ hnames
  rw [htext] at hread
  exact ⟨hnames, hread⟩

end Removal

end Schemata
