import Schemata.Proofs.Statement.Extending
import Schemata.Statement.TableConstraint

/-!
# Keys behind a column definition

A column definition ends where `CONSTRAINT` or `REFERENCES` stands: no type, value or generation
rule takes these words.  A definition that says nothing about keys is read in front of them as it is
read alone, and what is no constraint of the table stays none.

Whether a word says something about a key is asked of the words (`ColumnConstraint.IsPlain`), and
what they are read as has the same property (`ColumnConstraint.isPlain`), so that the hypothesis is
one that can be checked on a text.  The words behind are none or start with one of the two keywords
(`ColumnConstraint.IsKeySuffix`), and each reader stops in front of these for a reason of its own.

* `ColumnDefinition.goesOn_readWords`: a definition with a key of its column behind it.
* `ColumnDefinition.read_of_words`: a definition with other blanks between its words.
* `TableConstraint.read?_none_of_append`: a clause that is no constraint, with more words.
-/

namespace Schemata

/-! ## Constraints of a column -/

namespace ColumnConstraint

open Reading

variable {extra : List String}

/-- The extra words are none, or a key of the column that is named or not. -/
def IsKeySuffix (extra : List String) : Prop :=
  ∀ word ∈ extra.head?, word = "CONSTRAINT" ∨ word = "REFERENCES"

theorem IsKeySuffix.isColumnKeyword (hextra : IsKeySuffix extra) :
    ∀ word ∈ extra.head?, isColumnKeyword word = true := by
  intro word hword
  rcases hextra word hword with rfl | rfl <;> decide

/-- The word says nothing about a key. -/
def IsPlain (word : String) : Prop :=
  Text.lower word ≠ "constraint" ∧ Text.lower word ≠ "references"

instance (word : String) : Decidable (IsPlain word) :=
  inferInstanceAs (Decidable (_ ∧ _))

/-- The constraint says nothing about a key. -/
def isPlain : ColumnConstraint → Bool
  | references _ => false
  | named _ => false
  | _ => true

/-- Plain constraints leave the key of the draft and its name as they are. -/
theorem foldl_add_of_isPlain {constraints : List ColumnConstraint}
    (hplain : ∀ constraint ∈ constraints, constraint.isPlain = true) (draft : ColumnDraft) :
    (constraints.foldl ColumnDraft.add draft).foreignKey = draft.foreignKey ∧
      (constraints.foldl ColumnDraft.add draft).pendingName = draft.pendingName := by
  induction constraints generalizing draft with
  | nil => exact ⟨rfl, rfl⟩
  | cons constraint rest ih =>
      obtain ⟨hconstraint, hrest⟩ := List.forall_mem_cons.mp hplain
      have hstep : (draft.add constraint).foreignKey = draft.foreignKey ∧
          (draft.add constraint).pendingName = draft.pendingName := by
        cases constraint with
        | null =>
            rw [ColumnDraft.add]
            split <;> exact ⟨rfl, rfl⟩
        | references reference => cases hconstraint
        | named name => cases hconstraint
        | _ => exact ⟨rfl, rfl⟩
      rw [List.foldl_cons]
      exact ⟨(ih hrest _).1.trans hstep.1, (ih hrest _).2.trans hstep.2⟩

section Generated

variable {words rest : List String} {value : Option Unit}

/-- A step of a generation rule takes `BY DEFAULT` or another word, or the rule ends. -/
inductive GeneratedStep : List String → Option Unit → List String → Prop
  | default {words : List String} (hstart : Text.startWithKeywords words ["by", "default"] = true) :
      GeneratedStep words (some ()) (words.drop 2)
  | word {word : String} {others : List String}
      (hstart : Text.startWithKeywords (word :: others) ["by", "default"] = false)
      (hword : isColumnKeyword word = false) :
      GeneratedStep (word :: others) (some ()) others
  | ends {words : List String} (hstart : Text.startWithKeywords words ["by", "default"] = false)
      (hend : ∀ word ∈ words.head?, isColumnKeyword word = true) :
      GeneratedStep words none words

theorem GeneratedStep.reads (hstep : GeneratedStep words value rest) :
    Reads readGeneratedPart? words value rest := by
  cases hstep with
  | default hstart =>
      have haccept := reads_acceptAll ["by", "default"] words
      rw [hstart, if_pos rfl] at haccept
      exact haccept.bind (reads_pure _ _)
  | @word word _ hstart hword =>
      refine (reads_acceptAll_none hstart).bind (reads_get_bind fun reader hwords => ?_)
      rw [Reader.peek, hwords, List.head?_cons]
      dsimp only
      rw [hword, if_neg Bool.false_ne_true]
      exact (reads_skip 1 _).bind (reads_pure _ _)
  | ends hstart hend =>
      refine (reads_acceptAll_none hstart).bind (reads_get_bind fun reader hwords => ?_)
      rw [Reader.peek, hwords]
      cases hword : words.head? with
      | none => exact reads_pure none words
      | some word =>
          dsimp only
          rw [hend word hword, if_pos rfl]
          exact reads_pure none words

/-- There is a step from all words. -/
theorem exists_generatedStep (words : List String) :
    ∃ value rest, GeneratedStep words value rest := by
  cases hstart : Text.startWithKeywords words ["by", "default"] with
  | true => exact ⟨_, _, .default hstart⟩
  | false =>
      cases words with
      | nil => exact ⟨_, _, .ends hstart fun _ hword => absurd hword (Option.not_mem_none _)⟩
      | cons word others =>
          cases hword : isColumnKeyword word with
          | false => exact ⟨_, _, .word hstart hword⟩
          | true =>
              refine ⟨_, _, .ends hstart fun other hother => ?_⟩
              cases hother
              exact hword

theorem GeneratedStep.of_run {reader left : Reader}
    (hrun : readGeneratedPart?.run reader = .ok value left) :
    GeneratedStep reader.remaining value left.remaining := by
  obtain ⟨found, rest, hstep⟩ := exists_generatedStep reader.remaining
  obtain ⟨rfl, rfl⟩ := hstep.reads.unique rfl hrun
  exact hstep

theorem GeneratedStep.suffix (hstep : GeneratedStep words (some ()) rest) :
    rest <:+ words ∧ rest.length < words.length := by
  cases hstep with
  | default hstart =>
      have hlength : 2 ≤ words.length := length_le_of_startWithKeywords hstart
      rw [List.length_drop]
      exact ⟨List.drop_suffix 2 words, by omega⟩
  | word hstart hword => exact ⟨List.suffix_cons _ rest, Nat.lt_succ_self _⟩

theorem GeneratedStep.eq_of_none (hstep : GeneratedStep words none rest) : rest = words := by
  cases hstep
  rfl

/-- A key of the column behind the words makes no difference. -/
theorem GeneratedStep.append (hextra : IsKeySuffix extra)
    (hstep : GeneratedStep words value rest) :
    GeneratedStep (words ++ extra) value (rest ++ extra) := by
  have hnone : ∀ word ∈ extra.head?, Text.isAnyKeyword word ["by", "default"] = false := by
    intro word hword
    rcases hextra word hword with rfl | rfl <;> decide
  have happend := startWithKeywords_append hnone
  cases hstep with
  | default hstart =>
      have hlength : 2 ≤ words.length := length_le_of_startWithKeywords hstart
      rw [← List.drop_append_of_le_length hlength]
      exact .default ((happend words).trans hstart)
  | word hstart hword => exact .word ((happend _).trans hstart) hword
  | ends hstart hend =>
      refine .ends ((happend words).trans hstart) fun word hword => ?_
      rw [List.head?_append, Option.mem_def, Option.or_eq_some_iff] at hword
      rcases hword with hword | ⟨-, hword⟩
      · exact hend word hword
      · exact hextra.isColumnKeyword word hword

theorem advances_generated (all : List String) : Advances all readGeneratedPart? where
  some_suffix _ hrun := (GeneratedStep.of_run hrun).suffix.1
  some_lt _ hrun := (GeneratedStep.of_run hrun).suffix.2
  none_eq hrun := (GeneratedStep.of_run hrun).eq_of_none

/-- A generation rule ends where a key of the column starts. -/
theorem extends_generated (hextra : IsKeySuffix extra) :
    Extends extra (many readGeneratedPart?) := by
  have hend : GeneratedStep [] none [] :=
    .ends rfl fun _ hword => absurd hword (Option.not_mem_none _)
  refine extends_many advances_generated
    (fun hrun => ((GeneratedStep.of_run hrun).append hextra).reads) (fun hrun => ?_)
    (hend.append hextra).reads
  have hstep := GeneratedStep.of_run hrun
  rw [← hstep.eq_of_none] at hstep
  exact (hstep.append hextra).reads

end Generated

/-- A constraint that is no key takes the same words in front of a key. -/
theorem extends_readFrom (hextra : IsKeySuffix extra) (column : String) {word : String}
    (hword : IsPlain word) : Extends extra (readFrom column word) := by
  have hend : ∀ word ∈ extra.head?, (! isColumnKeyword word) = false := by
    intro word hword
    rw [hextra.isColumnKeyword word hword]
    rfl
  have hclosed : ∀ word ∈ extra.head?, (word.toList.head? == some '(') = false := by
    intro word hword
    rcases hextra word hword with rfl | rfl <;> decide
  -- neither a default value nor a group reaches into the words behind: the one stops at a keyword
  -- of a column, the other needs an opening parenthesis
  unfold readFrom
  split
  · exact (extends_expectKeyword extra "null").discard.bind fun _ => extends_pure extra _
  · exact extends_pure extra _
  · exact (extends_expectKeyword extra "key").discard.bind fun _ => extends_pure extra _
  · exact extends_pure extra _
  · refine (extends_expectWord extra "default value").bind fun first => ?_
    exact (extends_takeWhile hend).bind fun others => extends_pure extra _
  · rename_i hreferences
    exact absurd hreferences hword.2
  · exact (extends_expectWord extra "collation").discard.bind fun _ => extends_pure extra _
  · rename_i hconstraint
    exact absurd hconstraint hword.1
  · exact (extends_generated hextra).discard.bind fun _ => extends_pure extra _
  · exact extends_fail extra _
  · split
    · exact (extends_group? hclosed word).discard.bind fun _ => extends_pure extra _
    · exact extends_pure extra _

/-- A plain word starts a plain constraint. -/
theorem returns_readFrom (column : String) {word : String} (hword : IsPlain word) :
    Returns (fun constraint => constraint.isPlain = true) (readFrom column word) := by
  unfold readFrom
  split
  · exact returns_bind fun _ => returns_pure rfl
  · exact returns_pure rfl
  · exact returns_bind fun _ => returns_pure rfl
  · exact returns_pure rfl
  · exact returns_bind fun _ => returns_bind fun _ => returns_pure rfl
  · rename_i hreferences
    exact absurd hreferences hword.2
  · exact returns_bind fun _ => returns_pure rfl
  · rename_i hconstraint
    exact absurd hconstraint hword.1
  · exact returns_bind fun _ => returns_pure rfl
  · exact returns_fail _
  · split
    · exact returns_bind fun _ => returns_pure rfl
    · exact returns_pure rfl

/-- What a step on plain words takes and gives. -/
theorem extends_read? (hextra : IsKeySuffix extra) {column : String} {reader left : Reader}
    {constraint : ColumnConstraint} (hplain : ∀ word ∈ reader.remaining, IsPlain word)
    (hrun : (read? column).run reader = .ok (some constraint) left) :
    left.remaining <:+ reader.remaining ∧ left.remaining.length < reader.remaining.length ∧
      Reads (read? column) (reader.remaining ++ extra) (some constraint)
        (left.remaining ++ extra) ∧ constraint.isPlain = true := by
  rcases cases_of_run_next?_bind hrun with ⟨middle, -, -, hrest⟩ | ⟨word, middle, hwords, hrest⟩
  · cases hrest
  obtain ⟨value, last, hvalue, hlast⟩ := run_bind_eq_ok.mp hrest
  cases hlast
  have hword : IsPlain word := hplain word (hwords ▸ List.mem_cons_self)
  obtain ⟨hleft, hreads⟩ := extends_readFrom hextra column hword hvalue
  rw [hwords]
  exact ⟨hleft.trans (List.suffix_cons word _), Nat.lt_succ_of_le hleft.length_le,
    (reads_next?_cons word (middle.remaining ++ extra)).bind (hreads.bind (reads_pure _ _)),
    returns_readFrom column hword hvalue⟩

/-- The step declines at the end of the words alone. -/
theorem eq_nil_of_read?_none {column : String} {reader left : Reader}
    (hrun : (read? column).run reader = .ok none left) :
    reader.remaining = [] ∧ left.remaining = [] := by
  rcases cases_of_run_next?_bind hrun with
    ⟨middle, hreader, hmiddle, hrest⟩ | ⟨word, middle, -, hrest⟩
  · cases hrest
    exact ⟨hreader, hmiddle⟩
  · obtain ⟨value, last, -, hlast⟩ := run_bind_eq_ok.mp hrest
    cases hlast

theorem isKeySuffix_nil : IsKeySuffix [] :=
  fun _ hword => absurd hword (Option.not_mem_none _)

theorem advances_read? {all : List String} (hall : ∀ word ∈ all, IsPlain word) (column : String) :
    Advances all (read? column) where
  some_suffix hsuffix hrun :=
    (extends_read? isKeySuffix_nil (fun word hword => hall word (hsuffix.subset hword)) hrun).1
  some_lt hsuffix hrun :=
    (extends_read? isKeySuffix_nil (fun word hword => hall word (hsuffix.subset hword)) hrun).2.1
  none_eq hrun := by
    obtain ⟨hreader, hleft⟩ := eq_nil_of_read?_none hrun
    rw [hreader, hleft]

/-- The plain constraints of a column are taken, and what stands behind them is next. -/
theorem goesOn_many_read? (hextra : IsKeySuffix extra) {column : String} {reader left : Reader}
    {constraints : List ColumnConstraint} (hplain : ∀ word ∈ reader.remaining, IsPlain word)
    (hrun : (many (read? column)).run reader = .ok constraints left) :
    (∀ constraint ∈ constraints, constraint.isPlain = true) ∧
      ∃ bound, extra.length ≤ bound ∧
        GoesOn (many (read? column)) (reader.remaining ++ extra)
          (do
            let more ← manyUpTo (read? column) bound
            return constraints ++ more)
          extra := by
  have hadvances := advances_read? hplain column
  have hall : reader.remaining <:+ reader.remaining := List.suffix_refl _
  have hrun : (manyUpTo (read? column) reader.remaining.length).run reader =
      .ok constraints left := hrun
  obtain ⟨-, hlength, hstop⟩ := hadvances.manyUpTo_stops hall hrun
  -- A constraint starts with any word, so that the plain words are used up.
  have hnil : left.remaining = [] := by
    rcases hstop with hlimit | ⟨middle, hmiddle⟩
    · exact List.eq_nil_of_length_eq_zero (by omega)
    · exact (eq_nil_of_read?_none hmiddle).2
  have hsome : ∀ {other : Reader} {constraint : ColumnConstraint} {last : Reader},
      other.remaining <:+ reader.remaining →
      (read? column).run other = .ok (some constraint) last →
        Reads (read? column) (other.remaining ++ extra) (some constraint)
          (last.remaining ++ extra) ∧ constraint.isPlain = true := fun hsuffix hstep =>
    (extends_read? hextra (fun word hword => hplain word (hsuffix.subset hword)) hstep).2.2
  refine ⟨hadvances.forall_mem_manyUpTo (fun hsuffix hstep => (hsome hsuffix hstep).2) hall hrun,
    reader.remaining.length + extra.length - constraints.length, by omega, ?_⟩
  have hbound : constraints.length ≤ reader.remaining.length + extra.length := by omega
  have hgoes := hadvances.goesOn_manyUpTo (fun hsuffix hstep => (hsome hsuffix hstep).1) hall hrun
    hbound
  rw [hnil, List.nil_append] at hgoes
  intro other hother
  have hlimit : other.remaining.length = reader.remaining.length + extra.length := by
    rw [hother, List.length_append]
  obtain ⟨last, hlast, hsame⟩ := hgoes hother
  exact ⟨last, hlast, by rw [← hsame, ← hlimit]; rfl⟩

/-- Without words there are no constraints. -/
theorem reads_manyUpTo_nil (column : String) (limit : Nat) :
    Reads (manyUpTo (read? column) limit) [] [] [] := by
  have hnone : Reads (read? column) [] none [] := reads_next?_nil.bind (reads_pure none [])
  cases limit with
  | zero => exact reads_pure [] []
  | succ limit => exact hnone.bind (reads_pure [] [])

end ColumnConstraint

/-! ## Definitions with a key behind them -/

namespace ColumnDefinition

open Reading

variable {extra : List String} {origin : Origin} {table text : String}
  {definition : ColumnDefinition}

theorem extends_readColumn (hextra : ColumnConstraint.IsKeySuffix extra) (file : String) :
    Extends extra (readColumn file) := by
  have hend : ∀ word ∈ extra.head?, (! isColumnKeyword word) = false := by
    intro word hword
    rw [hextra.isColumnKeyword word hword]
    rfl
  unfold readColumn
  refine (extends_expectIdentifier extra "column name").bind fun name => ?_
  refine (extends_takeWhile hend).bind fun words => ?_
  split
  · exact extends_fail extra _
  · split
    · exact extends_fail extra _
    · exact extends_pure extra _

/-- A definition of plain words is read in front of a key of its column as well, and the key is read
next. -/
theorem goesOn_readWords (hextra : ColumnConstraint.IsKeySuffix extra)
    (hplain : ∀ word ∈ Text.words text, ColumnConstraint.IsPlain word)
    (hread : read origin table text = .ok definition) :
    ∃ column constraints bound, extra.length ≤ bound ∧
      (∀ constraint ∈ constraints, constraint.isPlain = true) ∧
      (constraints.foldl ColumnDraft.add ⟨column, none, none⟩).definition = definition ∧
      GoesOn (readWords origin.file) (Text.words text ++ extra)
        (do
          let more ← manyUpTo (ColumnConstraint.read? column.name) bound
          return ((constraints ++ more).foldl ColumnDraft.add ⟨column, none, none⟩).definition)
        extra := by
  obtain ⟨column, middle, constraints, left, hcolumn, hconstraints, hdefinition, -⟩ :=
    exists_of_read hread
  -- the name and the type take the same words in front of the key
  obtain ⟨hmiddle, hreads⟩ := extends_readColumn hextra origin.file hcolumn
  have hstart : (Reader.start origin.file text).remaining = Text.words text := rfl
  rw [hstart] at hmiddle hreads
  have hrest : ∀ word ∈ middle.remaining, ColumnConstraint.IsPlain word :=
    fun word hword => hplain word (hmiddle.subset hword)
  -- and so do the constraints, of which there may be more behind
  obtain ⟨hall, bound, hbound, hgoes⟩ :=
    ColumnConstraint.goesOn_many_read? hextra hrest hconstraints
  refine ⟨column, constraints, bound, hbound, hall, hdefinition, ?_⟩
  have hfirst : GoesOn (readWords origin.file) (Text.words text ++ extra)
      (do
        let constraints ← many (ColumnConstraint.read? column.name)
        return (constraints.foldl ColumnDraft.add ⟨column, none, none⟩).definition)
      (middle.remaining ++ extra) := hreads.goesOn _
  have hboth := hfirst.trans (hgoes.bind _)
  simpa only [bind_assoc, pure_bind] using hboth

/-- Of a definition of plain words only the words count. -/
theorem read_of_words {clause : String}
    (hplain : ∀ word ∈ Text.words clause, ColumnConstraint.IsPlain word)
    (hread : read origin table clause = .ok definition)
    (hwords : Text.words text = Text.words clause) : read origin table text = .ok definition := by
  obtain ⟨column, constraints, bound, -, -, hdefinition, hgoes⟩ :=
    goesOn_readWords ColumnConstraint.isKeySuffix_nil hplain hread
  have hreads := hgoes.reads
    ((ColumnConstraint.reads_manyUpTo_nil column.name bound).bind (reads_pure _ []))
  rw [List.append_nil, List.append_nil, hdefinition, ← hwords] at hreads
  rw [read, hreads.ofText, except_ok_bind]
  rw [checkPrimaryKey_of_read hread, except_ok_bind, except_pure_eq_ok]

/-- A definition of plain words declares no key. -/
theorem foreignKey_of_isPlain
    (hplain : ∀ word ∈ Text.words text, ColumnConstraint.IsPlain word)
    (hread : read origin table text = .ok definition) : definition.foreignKey = none := by
  obtain ⟨column, constraints, -, -, hconstraints, rfl, -⟩ :=
    goesOn_readWords ColumnConstraint.isKeySuffix_nil hplain hread
  exact (ColumnConstraint.foldl_add_of_isPlain hconstraints ⟨column, none, none⟩).1

end ColumnDefinition

/-! ## Clauses that are no constraints -/

/-- The next words start a constraint of the table. -/
def Reader.startsConstraint (reader : Reader) : Bool :=
  reader.nextIs "constraint" || (reader.nextIs "primary" && reader.nextIsAt 1 "key") ||
    (reader.nextIs "foreign" && reader.nextIsAt 1 "key") || reader.nextIs "unique" ||
    reader.nextIs "check" || reader.nextIs "exclude"

namespace TableConstraint

open Reading

theorem run_readName?_none {reader left : Reader} :
    readName?.run reader = .ok none left ↔ reader.nextIs "constraint" = false ∧ reader = left := by
  rw [readName?, run_accept_else]
  cases reader.nextIs "constraint" with
  | true =>
      rw [if_pos rfl, run_bind_eq_ok]
      constructor
      · rintro ⟨name, middle, -, hrun⟩
        cases hrun
      · rintro ⟨hnot, -⟩
        cases hnot
  | false =>
      rw [if_neg Bool.false_ne_true]
      exact ⟨fun hrun => ⟨rfl, (EStateM.Result.ok.inj hrun).2⟩, fun hsame => hsame.2 ▸ rfl⟩

/-- A constraint that is read to its end is one. -/
theorem run_some_ne_none {action : Reading TableConstraint} {reader left : Reader} :
    (do return some (← action) : Reading (Option TableConstraint)).run reader ≠ .ok none left := by
  intro hrun
  obtain ⟨constraint, middle, -, hrun⟩ := run_bind_eq_ok.mp hrun
  cases hrun

/-- Words that start no constraint are none, and only these. -/
theorem read?_eq_none_iff {origin : Origin} {text : String} :
    read? origin text = .ok none ↔ (Reader.start origin.file text).startsConstraint = false := by
  rw [read?, ofText_eq_ok_iff]
  generalize Reader.start origin.file text = reader
  simp only [Reader.startsConstraint, Bool.or_eq_false_iff]
  constructor
  · -- every way to a constraint is closed, so all the questions on the way were answered with no
    rintro ⟨left, hrun⟩
    obtain ⟨name, middle, hname, hrun⟩ := run_bind_eq_ok.mp hrun
    rw [run_get_bind] at hrun
    split at hrun
    · exact absurd hrun run_some_ne_none
    rename_i hprimary
    split at hrun
    · exact absurd hrun run_some_ne_none
    rename_i hforeign
    split at hrun
    · exact absurd hrun run_some_ne_none
    rename_i hunique
    split at hrun
    · exact absurd hrun run_some_ne_none
    rename_i hcheck
    split at hrun
    · cases hrun
    rename_i hother
    rw [Bool.or_eq_true, not_or, Option.not_isSome_iff_eq_none] at hother
    obtain ⟨hexclude, rfl⟩ := hother
    obtain ⟨hnone, rfl⟩ := run_readName?_none.mp hname
    simp only [Bool.not_eq_true] at hprimary hforeign hunique hcheck hexclude
    exact ⟨⟨⟨⟨⟨hnone, hprimary⟩, hforeign⟩, hunique⟩, hcheck⟩, hexclude⟩
  · rintro ⟨⟨⟨⟨⟨hname, hprimary⟩, hforeign⟩, hunique⟩, hcheck⟩, hexclude⟩
    refine ⟨reader, run_bind_eq_ok.mpr ⟨none, reader, run_readName?_none.mpr ⟨hname, rfl⟩, ?_⟩⟩
    rw [run_get_bind, hprimary, hforeign, hunique, hcheck, hexclude]
    rfl

/-- A clause of two words or more that is no constraint is none with more words behind. -/
theorem read?_none_of_append {origin : Origin} {clause text first second : String}
    {others extra : List String} (hplain : read? origin clause = .ok none)
    (hclause : Text.words clause = first :: second :: others)
    (htext : Text.words text = Text.words clause ++ extra) : read? origin text = .ok none := by
  rw [hclause] at htext
  rw [read?_eq_none_iff] at hplain ⊢
  have hpeek : (Reader.start origin.file text).peek = (Reader.start origin.file clause).peek := by
    rw [Reader.peek, Reader.peek, Reader.start, Reader.start, htext, hclause]
    rfl
  have hahead : (Reader.start origin.file text).peekAt 1 =
      (Reader.start origin.file clause).peekAt 1 := by
    rw [Reader.peekAt, Reader.peekAt, Reader.start, Reader.start, htext, hclause]
    rfl
  simpa only [Reader.startsConstraint, Reader.nextIs, Reader.nextIsAt, hpeek, hahead] using hplain

end TableConstraint

end Schemata
