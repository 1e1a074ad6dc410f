import Mathlib.Data.List.Basic
import Schemata.Proofs.Statement.ColumnParts

/-!
# Names of the keys of columns

In a column definition `CONSTRAINT name` may stand in front of any constraint, but only foreign keys
have names.  The name is kept until a foreign key takes it, so that a key takes the last name in
front of it, whatever stands between them.

What stands directly in front of `REFERENCES` is a statement about words, and what the reader keeps
is a statement about constraints.  The definition is therefore taken apart into parts, each with its
words and the constraint that is read of them (`ColumnPart`), and a part tells by its first word
whether it is a name.  The words of a part may hold `CONSTRAINT` as a value, as in
`DEFAULT constraint`; only without that do the words in front of the key end with a name exactly
when the last part is one:

* `WrittenColumn.foreignKey_of_parts`: the key of a definition with one `REFERENCES`.
* `ColumnPart.endsWithName_iff`: when the words in front of `REFERENCES` end with `CONSTRAINT` and a
  name.
* `ColumnDefinition.key_name_of_read`: the name of the key, and when it is the name that stands
  directly in front of `REFERENCES`.
* `ColumnDefinition.not_key_name_directly`: a key with a name that stands in front of `NOT NULL`.
-/

namespace Schemata

/-! ## The key of a definition -/

namespace ColumnPart

variable {parts : List ColumnPart} {opening : List String} {name : String}

/-- Constraints without a foreign key leave the last name among them. -/
theorem foldl_add_of_no_reference (hparts : ∀ part ∈ parts, part.isReference = false)
    (draft : ColumnDraft) :
    ((parts.map constraint).foldl ColumnDraft.add draft).foreignKey = draft.foreignKey ∧
      ((parts.map constraint).foldl ColumnDraft.add draft).pendingName =
        (parts.filterMap name?).getLast?.or draft.pendingName := by
  -- on the parts, with the draft free: each leaves the key alone and the name too, unless it is one
  induction parts generalizing draft with
  | nil => exact ⟨rfl, rfl⟩
  | cons part rest ih =>
      obtain ⟨hpart, hrest⟩ := List.forall_mem_cons.mp hparts
      have hstep : (draft.add part.constraint).foreignKey = draft.foreignKey ∧
          (draft.add part.constraint).pendingName = part.name?.or draft.pendingName := by
        obtain ⟨words, constraint⟩ := part
        cases constraint with
        | null =>
            dsimp only
            rw [ColumnDraft.add]
            split <;> exact ⟨rfl, rfl⟩
        | references reference => cases hpart
        | _ => exact ⟨rfl, rfl⟩
      obtain ⟨hkey, hname⟩ := ih hrest (draft.add part.constraint)
      rw [List.map_cons, List.foldl_cons]
      refine ⟨hkey.trans hstep.1, hname.trans ?_⟩
      rw [hstep.2]
      cases hfirst : part.name? with
      | none => rw [List.filterMap_cons_none hfirst, Option.none_or]
      | some first =>
          rw [List.filterMap_cons_some hfirst, List.getLast?_cons]
          cases (rest.filterMap name?).getLast? <;> rfl

end ColumnPart

/-- The key of a column without a name has the default name. -/
theorem Reference.expand_constraint {reference : Reference}
    (hcolumns : reference.columns.length = 1) (name : Option String) (column table file : String) :
    ∃ key, (reference.constraint name [column]).expand table file = [key] ∧
      key.name = name.getD (ForeignKey.defaultName table column) := by
  obtain ⟨referenced, hreferenced⟩ := List.length_eq_one_iff.mp hcolumns
  refine ⟨_, by rw [ForeignKeyConstraint.expand, Reference.constraint, hreferenced]; rfl, ?_⟩
  cases name <;> rfl

/-- The one foreign key of a definition takes the last name in front of it. -/
theorem WrittenColumn.foreignKey_of_parts {written : WrittenColumn} {before after : List ColumnPart}
    {words : List String} {reference : Reference}
    (hparts : written.parts = before ++ ⟨words, .references reference⟩ :: after)
    (hothers : ∀ part ∈ before ++ after, part.isReference = false) :
    written.definition.foreignKey = some (reference.constraint
      (before.filterMap ColumnPart.name?).getLast? [written.definition.column.name]) := by
  obtain ⟨hbefore, hafter⟩ := List.forall_mem_append.mp hothers
  have hplain : ColumnDraft.IsOf written.column.name ⟨written.column, none, none⟩ :=
    ⟨rfl, fun _ hkey => absurd hkey (Option.not_mem_none _)⟩
  have hcolumn : written.definition.column.name = written.column.name :=
    (hplain.foldl_add _).column
  have hfront := (hplain.foldl_add (before.map ColumnPart.constraint)).column
  have hname := (ColumnPart.foldl_add_of_no_reference hbefore ⟨written.column, none, none⟩).2
  rw [Option.or_none] at hname
  rw [hcolumn, WrittenColumn.definition, hparts, List.map_append, List.map_cons, List.foldl_append,
    List.foldl_cons]
  refine (ColumnPart.foldl_add_of_no_reference hafter _).1.trans ?_
  rw [ColumnDraft.add, hname, hfront]

/-! ## Names directly in front of a key -/

/-- The words end with `CONSTRAINT` and the name. -/
def EndsWithName (words : List String) (name : String) : Prop :=
  ∃ first second, [first, second] <:+ words ∧ Text.lower first = "constraint" ∧
    Text.unquoteIdentifier second = name

namespace ColumnPart

variable {parts : List ColumnPart} {part : ColumnPart} {opening : List String} {name : String}

theorem Shape.name_cases (hpart : part.Shape) :
    (∃ first second, part.words = [first, second] ∧ Text.lower first = "constraint" ∧
      part.name? = some (Text.unquoteIdentifier second)) ∨
    ∃ first taken, part.words = first :: taken ∧ Text.lower first ≠ "constraint" ∧
      part.name? = none := by
  cases hpart with
  | name hfirst => exact Or.inl ⟨_, _, rfl, hfirst, rfl⟩
  | reference hfirst hcolumns =>
      exact Or.inr ⟨_, _, rfl, fun hname => absurd (hfirst.symm.trans hname) (by decide), rfl⟩
  | @plain first taken constraint hfirst hplain =>
      refine Or.inr ⟨first, taken, rfl, hfirst.1, ?_⟩
      cases constraint with
      | named name => cases hplain
      | _ => rfl

/-- A part whose values are not `CONSTRAINT` does not end with that word. -/
theorem Shape.lower_getLast?_ne (hpart : part.Shape)
    (hvalues : ∀ word ∈ part.words.tail, Text.lower word ≠ "constraint") :
    ∀ word ∈ part.words.getLast?, Text.lower word ≠ "constraint" := by
  intro word hword
  rcases hpart.name_cases with ⟨first, second, hwords, -, -⟩ | ⟨first, taken, hwords, hfirst, -⟩
  · rw [hwords] at hword hvalues
    cases hword
    exact hvalues second List.mem_cons_self
  · rw [hwords] at hword hvalues
    rcases List.mem_cons.mp (List.mem_of_getLast? hword) with rfl | htaken
    · exact hfirst
    · exact hvalues word htaken

/-- One part more: the words end with a name if the part is one. -/
theorem Shape.endsWithName_append_iff (hpart : part.Shape)
    (hopening : ∀ word ∈ opening.getLast?, Text.lower word ≠ "constraint")
    (hvalues : ∀ word ∈ part.words.tail, Text.lower word ≠ "constraint") :
    EndsWithName (opening ++ part.words) name ↔ part.name? = some name := by
  rcases hpart.name_cases with ⟨first, second, hwords, hfirst, hname⟩ |
    ⟨first, taken, hwords, hfirst, hname⟩
  · rw [hwords, hname, Option.some.injEq]
    constructor
    · rintro ⟨keyword, given, hsuffix, -, hgiven⟩
      have hsame := List.suffix_of_suffix_length_le hsuffix
        (List.suffix_append opening [first, second]) (Nat.le_refl 2)
      cases hsame.eq_of_length rfl
      exact hgiven
    · exact fun hgiven => ⟨first, second, List.suffix_append opening _, hfirst, hgiven⟩
  · rw [hwords] at hvalues
    rw [hwords, hname]
    constructor
    · rintro ⟨keyword, given, hsuffix, hkeyword, -⟩
      cases taken with
      | nil =>
          -- The keyword would stand at the end of the words in front.
          obtain ⟨others, hothers⟩ := hsuffix
          have hends : (others ++ [keyword]) ++ [given] = opening ++ [first] := by
            rw [← hothers, List.append_assoc]
            rfl
          obtain ⟨hfront, -⟩ := List.append_inj' hends rfl
          have hlast : opening.getLast? = some keyword := by
            rw [← hfront, List.getLast?_concat]
          exact absurd hkeyword (hopening keyword hlast)
      | cons second rest =>
          have hinner := List.suffix_of_suffix_length_le hsuffix
            (List.suffix_append opening (first :: second :: rest)) (by simp)
          rcases List.mem_cons.mp (hinner.subset List.mem_cons_self) with rfl | hmem
          · exact absurd hkeyword hfirst
          · exact absurd hkeyword (hvalues keyword hmem)
    · exact fun hnone => nomatch hnone

theorem lower_getLast?_append_ne (hparts : ∀ part ∈ parts, part.Shape)
    (hopening : ∀ word ∈ opening.getLast?, Text.lower word ≠ "constraint")
    (hvalues : ∀ part ∈ parts, ∀ word ∈ part.words.tail, Text.lower word ≠ "constraint") :
    ∀ word ∈ (opening ++ parts.flatMap words).getLast?, Text.lower word ≠ "constraint" := by
  induction parts generalizing opening with
  | nil => simpa using hopening
  | cons part rest ih =>
      obtain ⟨hpart, hrest⟩ := List.forall_mem_cons.mp hparts
      obtain ⟨hfirst, hothers⟩ := List.forall_mem_cons.mp hvalues
      rw [List.flatMap_cons, ← List.append_assoc]
      refine ih hrest (fun word hword => ?_) hothers
      rw [List.getLast?_append, Option.mem_def, Option.or_eq_some_iff] at hword
      rcases hword with hword | ⟨-, hword⟩
      · exact hpart.lower_getLast?_ne hfirst word hword
      · exact hopening word hword

/-- The words end with a name if the last part is one, where `CONSTRAINT` is no value. -/
theorem endsWithName_iff (hparts : ∀ part ∈ parts, part.Shape)
    (hopening : ∀ word ∈ opening, Text.lower word ≠ "constraint")
    (hvalues : ∀ part ∈ parts, ∀ word ∈ part.words.tail, Text.lower word ≠ "constraint") :
    EndsWithName (opening ++ parts.flatMap words) name ↔
      ∃ part ∈ parts.getLast?, part.name? = some name := by
  have hlast : ∀ word ∈ opening.getLast?, Text.lower word ≠ "constraint" :=
    fun word hword => hopening word (List.mem_of_getLast? hword)
  rcases List.eq_nil_or_concat parts with rfl | ⟨front, last, rfl⟩
  · constructor
    · rintro ⟨keyword, given, hsuffix, hkeyword, -⟩
      rw [List.flatMap_nil, List.append_nil] at hsuffix
      exact absurd hkeyword (hopening keyword (hsuffix.subset List.mem_cons_self))
    · rintro ⟨part, hpart, -⟩
      cases hpart
  · rw [List.concat_eq_append] at hparts hvalues ⊢
    obtain ⟨hfront, hend⟩ := List.forall_mem_append.mp hparts
    obtain ⟨hothers, hvalue⟩ := List.forall_mem_append.mp hvalues
    have hbefore := lower_getLast?_append_ne hfront hlast hothers
    rw [List.flatMap_append, List.flatMap_singleton, ← List.append_assoc,
      (hend last List.mem_cons_self).endsWithName_append_iff hbefore
        (hvalue last List.mem_cons_self), List.getLast?_concat]
    simp

/-- Where there are names among the constraints, the last constraint is one. -/
def NamesEnd (parts : List ColumnPart) : Prop :=
  (∀ part ∈ parts, part.name? = none) ∨ ∃ part ∈ parts.getLast?, part.name?.isSome = true

/-- The last name among the constraints is that of the last constraint if the names end there. -/
theorem getLast?_names_iff :
    (∀ name, (parts.filterMap name?).getLast? = some name ↔
      ∃ part ∈ parts.getLast?, part.name? = some name) ↔ NamesEnd parts := by
  rcases List.eq_nil_or_concat parts with rfl | ⟨front, last, rfl⟩
  · simp [NamesEnd]
  rw [List.concat_eq_append, List.filterMap_append, List.getLast?_append, NamesEnd,
    List.getLast?_concat]
  cases hlast : last.name? with
  | some found => simp [hlast]
  | none =>
      have hnone : (∀ name, (front.filterMap name?).getLast? ≠ some name) ↔
          ∀ part ∈ front, part.name? = none := by
        rw [← List.filterMap_eq_nil_iff, ← List.getLast?_eq_none_iff,
          Option.eq_none_iff_forall_ne_some]
      simpa [hlast, or_imp, forall_and] using hnone

end ColumnPart

/-! ## The name of the key -/

namespace ColumnDefinition

variable {origin : Origin} {table text : String} {definition : ColumnDefinition}

/-- A definition that is read and has one `REFERENCES` declares one key.  The key takes the last
name among the constraints in front of it, or the default name if there is none.  Where the word
`CONSTRAINT` stands only at the start of constraints, the key has the name that stands directly in
front of `REFERENCES` and no other, if and only if no other constraint stands between a name and the
key. -/
theorem key_name_of_read (hread : read origin table text = .ok definition) :
    ∃ written, WrittenColumn.ofText origin.file text = .ok written ∧
      written.definition = definition ∧
      Text.words text = written.opening ++ written.parts.flatMap ColumnPart.words ∧
      (∀ part ∈ written.parts,
        (∀ name, part.name? = some name ↔ ∃ first second, part.words = [first, second] ∧
          Text.lower first = "constraint" ∧ Text.unquoteIdentifier second = name) ∧
        (part.isReference = true ↔
          ∃ first ∈ part.words.head?, Text.lower first = "references")) ∧
      ∀ before reference after, written.parts = before ++ reference :: after →
        reference.isReference = true → (∀ part ∈ before ++ after, part.isReference = false) →
        ∃ constraint, definition.foreignKey = some constraint ∧
          constraint.name = (before.filterMap ColumnPart.name?).getLast? ∧
          (∀ owner file, ∃ key, constraint.expand owner file = [key] ∧
            key.name = constraint.name.getD
              (ForeignKey.defaultName owner definition.column.name)) ∧
          ((∀ word ∈ written.opening, Text.lower word ≠ "constraint") →
            (∀ part ∈ before, ∀ word ∈ part.words.tail, Text.lower word ≠ "constraint") →
            ((∀ name, constraint.name = some name ↔
              EndsWithName (written.opening ++ before.flatMap ColumnPart.words) name) ↔
                ColumnPart.NamesEnd before)) := by
  obtain ⟨written, hwritten, rfl⟩ := WrittenColumn.exists_of_read hread
  obtain ⟨hwords, hshape⟩ := WrittenColumn.words_of_ofText hwritten
  refine ⟨written, hwritten, rfl, hwords, fun part hpart =>
    ⟨fun name => (hshape part hpart).name?_eq_some_iff, (hshape part hpart).isReference_iff⟩, ?_⟩
  intro before reference after hparts hreference hothers
  rw [hparts] at hshape
  obtain ⟨hbefore, hbehind⟩ := List.forall_mem_append.mp hshape
  obtain ⟨words, constraint⟩ := reference
  -- the part with the reference is of the one shape that can have one
  cases hbehind _ List.mem_cons_self with
  | name hfirst => cases hreference
  | plain hfirst hplain =>
      cases constraint with
      | references reference => cases hplain
      | _ => cases hreference
  | @reference first taken reference hfirst hcolumns =>
      refine ⟨_, WrittenColumn.foreignKey_of_parts hparts hothers, rfl, fun owner file =>
        reference.expand_constraint hcolumns _ _ owner file, fun hopening hvalues => ?_⟩
      -- the last name is that of the last part just when the words end with it
      rw [← ColumnPart.getLast?_names_iff]
      exact forall_congr' fun name => iff_congr Iff.rfl
        (ColumnPart.endsWithName_iff hbefore hopening hvalues)

/-- The column `a` of type `uuid`. -/
def uuidColumn : Column :=
  { Column.plain "a" ⟨"uuid", none, none, none⟩ with createdIn := "0001.sql" }

/-- `REFERENCES r (id)`. -/
def referencesR : ColumnPart :=
  ⟨["REFERENCES", "r", "(id)"], .references ⟨⟨none, "r"⟩, ["id"], .noAction, .noAction⟩⟩

/-- A name directly in front of `REFERENCES`, with constraints around both. -/
theorem key_name_of_read_direct :
    ∃ definition constraint,
      read ⟨"0001.sql", .postgres⟩ "t" "a uuid NOT NULL CONSTRAINT f REFERENCES r (id) UNIQUE" =
        .ok definition ∧
      definition.foreignKey = some constraint ∧ constraint.name = some "f" ∧
      EndsWithName ["a", "uuid", "NOT", "NULL", "CONSTRAINT", "f"] "f" := by
  let before : List ColumnPart := [⟨["NOT", "NULL"], .notNull⟩, ⟨["CONSTRAINT", "f"], .named "f"⟩]
  let after : List ColumnPart := [⟨["UNIQUE"], .unique⟩]
  have hread : read ⟨"0001.sql", .postgres⟩ "t"
      "a uuid NOT NULL CONSTRAINT f REFERENCES r (id) UNIQUE" =
        .ok (WrittenColumn.definition ⟨["a", "uuid"], uuidColumn,
          before ++ referencesR :: after⟩) := by decide +kernel
  have hparts : WrittenColumn.ofText "0001.sql"
      "a uuid NOT NULL CONSTRAINT f REFERENCES r (id) UNIQUE" =
        .ok ⟨["a", "uuid"], uuidColumn, before ++ referencesR :: after⟩ := by decide +kernel
  obtain ⟨written, hwritten, -, -, -, hkey⟩ := key_name_of_read hread
  obtain rfl := Except.ok.inj (hwritten.symm.trans hparts)
  obtain ⟨constraint, hconstraint, hname, -, hdirect⟩ :=
    hkey before referencesR after rfl rfl (by decide)
  have hgiven : constraint.name = some "f" := hname.trans (by decide)
  have hends : ColumnPart.NamesEnd before := Or.inr ⟨⟨["CONSTRAINT", "f"], .named "f"⟩, rfl, rfl⟩
  exact ⟨_, constraint, hread, hconstraint, hgiven,
    ((hdirect (by decide) (by decide)).mpr hends "f").mp hgiven⟩

/-- A key may have a name that does not stand directly in front of it: in
`CONSTRAINT nn NOT NULL REFERENCES r (id)` the name of the other constraint. -/
theorem not_key_name_directly :
    ¬ ∀ (origin : Origin) (table text : String) (definition : ColumnDefinition)
        (written : WrittenColumn) (before after : List ColumnPart) (reference : ColumnPart)
        (constraint : ForeignKeyConstraint),
      read origin table text = .ok definition →
      WrittenColumn.ofText origin.file text = .ok written →
      written.parts = before ++ reference :: after → reference.isReference = true →
      (∀ part ∈ before ++ after, part.isReference = false) →
      definition.foreignKey = some constraint →
      ∀ name, constraint.name = some name ↔
        EndsWithName (written.opening ++ before.flatMap ColumnPart.words) name := by
  intro hall
  let before : List ColumnPart := [⟨["CONSTRAINT", "nn"], .named "nn"⟩, ⟨["NOT", "NULL"], .notNull⟩]
  have hnamed := hall ⟨"0001.sql", .postgres⟩ "t" "a uuid CONSTRAINT nn NOT NULL REFERENCES r (id)"
    (WrittenColumn.definition ⟨["a", "uuid"], uuidColumn, before ++ [referencesR]⟩)
    ⟨["a", "uuid"], uuidColumn, before ++ [referencesR]⟩ before [] referencesR _
    (by decide +kernel) (by decide +kernel) rfl rfl (by decide) rfl "nn"
  obtain ⟨first, second, hsuffix, hfirst, -⟩ := hnamed.mp rfl
  have hlast : [first, second] <:+ ["NOT", "NULL"] :=
    List.suffix_of_suffix_length_le hsuffix
      (List.suffix_append ["a", "uuid", "CONSTRAINT", "nn"] _) (Nat.le_refl 2)
  cases hlast.eq_of_length rfl
  exact absurd hfirst (by decide)

end ColumnDefinition

end Schemata
