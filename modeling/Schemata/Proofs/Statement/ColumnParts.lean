import Schemata.Proofs.Statement.Wordwise

/-!
# The words of column constraints

A column definition is read as constraints, and the words of each are lost.  Here they are kept: a
`WrittenColumn` is a column definition as it is written, the words of name and type and then each
constraint with its words.  Reading it is reading the definition (`WrittenColumn.readWords_eq`), no
word is lost (`WrittenColumn.words_of_ofText`), and the words of a part say what it is.

* `Reading.withWords`: a step with the words it takes.
* `ColumnPart.IsFrom`: a constraint that is read from its words.
* `ColumnPart.Shape.name?_eq_some_iff`, `ColumnPart.Shape.isReference_iff`: parts that name or make
  a key.
-/

namespace Schemata

/-! ## Steps with their words -/

namespace Reading

variable {α : Type}

/-- The step, with the words it takes. -/
def withWords (action : Reading α) : Reading (List String × α) := do
  let before := (← get).remaining
  let value ← action
  let after := (← get).remaining
  return (before.take (before.length - after.length), value)

theorem withWords_eq (action : Reading α) : (do return (← withWords action).2) = action := by
  have hrun : ∀ reader, (do return (← withWords action).2 : Reading α).run reader =
      action.run reader := by
    intro reader
    simp only [withWords, bind_assoc, pure_bind]
    rw [run_get_bind, EStateM.run_bind]
    cases action.run reader <;> rfl
  exact funext hrun

/-- The words that a step takes stand in front of those it leaves. -/
theorem run_withWords {action : Reading α} (haction : IsWordwise action) {reader left : Reader}
    {taken : List String} {value : α}
    (hrun : (withWords action).run reader = .ok (taken, value) left) :
    Gives action (taken ++ left.remaining) (.ok (value, left.remaining)) ∧
      taken ++ left.remaining = reader.remaining := by
  rw [withWords, run_get_bind] at hrun
  obtain ⟨found, middle, hfound, hrun⟩ := run_bind_eq_ok.mp hrun
  cases hrun
  have hgives := haction.gives hfound
  obtain ⟨taken, hwords⟩ := hgives.1
  have htake : reader.remaining.take (reader.remaining.length - left.remaining.length) = taken := by
    rw [← hwords, List.length_append, Nat.add_sub_cancel, List.take_left]
  rw [htake, hwords]
  exact ⟨hgives, rfl⟩

end Reading

open Reading

/-! ## Constraints with their words -/

namespace ColumnConstraint

variable {column word : String}

theorem readFrom_constraint (hword : Text.lower word = "constraint") :
    readFrom column word = (do return named (← expectIdentifier "constraint name")) := by
  rw [readFrom, hword]
  rfl

theorem readFrom_references (hword : Text.lower word = "references") :
    readFrom column word = readReference column := by
  rw [readFrom, hword]
  rfl

theorem returns_readReference (column : String) :
    Returns (fun constraint => ∃ reference : Reference, constraint = references reference ∧
      reference.columns.length = 1) (readReference column) := by
  refine returns_bind fun written => ?_
  dsimp only
  split
  · rename_i hlength
    exact returns_pure ⟨_, rfl, eq_of_beq hlength⟩
  · exact returns_fail _

end ColumnConstraint

/-- A constraint of a column with the words it is read from. -/
structure ColumnPart where
  /-- The words, in the order of the text. -/
  words : List String
  /-- The constraint. -/
  constraint : ColumnConstraint
  deriving DecidableEq, Repr, Inhabited

namespace ColumnPart

/-- Takes the next constraint of a column; declines at the end of the words. -/
def read? (column : String) : Reading (Option ColumnPart) := do
  match ← next? with
  | some word =>
      let (taken, constraint) ← withWords (ColumnConstraint.readFrom column word)
      return some ⟨word :: taken, constraint⟩
  | none => return none

/-- The name that the constraint gives to the next foreign key. -/
def name? (part : ColumnPart) : Option String :=
  match part.constraint with
  | .named name => some name
  | _ => none

/-- The constraint is a foreign key. -/
def isReference (part : ColumnPart) : Bool :=
  match part.constraint with
  | .references _ => true
  | _ => false

/-- The constraint is read from its words, whatever stands behind them. -/
def IsFrom (column : String) (part : ColumnPart) : Prop :=
  ∃ word taken rest, part.words = word :: taken ∧
    Gives (ColumnConstraint.readFrom column word) (taken ++ rest) (.ok (part.constraint, rest))

theorem read?_eq (column : String) :
    (do return (← read? column).map constraint) = ColumnConstraint.read? column := by
  have hword : ∀ word, (do
      let (taken, constraint) ← withWords (ColumnConstraint.readFrom column word)
      return some constraint) = (do return some (← ColumnConstraint.readFrom column word)) := by
    intro word
    have hsame := congrArg (fun action => (do return some (← action) :
      Reading (Option ColumnConstraint))) (withWords_eq (ColumnConstraint.readFrom column word))
    simpa only [bind_assoc, pure_bind] using hsame
  rw [read?, ColumnConstraint.read?, bind_assoc]
  refine bind_congr fun found => ?_
  cases found with
  | none => rfl
  | some word =>
      refine Eq.trans ?_ (hword word)
      simp only [bind_assoc, pure_bind, Option.map_some]

theorem manyUpTo_read?_eq (column : String) (limit : Nat) :
    (do return (← manyUpTo (read? column) limit).map constraint) =
      manyUpTo (ColumnConstraint.read? column) limit := by
  induction limit with
  | zero => rfl
  | succ limit ih =>
      rw [manyUpTo, manyUpTo, ← ih, ← read?_eq]
      simp only [bind_assoc, pure_bind]
      refine bind_congr fun found => ?_
      cases found with
      | none => rfl
      | some part => simp only [Option.map_some, bind_assoc, pure_bind, List.map_cons]

theorem many_read?_eq (column : String) :
    (do return (← many (read? column)).map constraint) =
      many (ColumnConstraint.read? column) := by
  simp only [many, ← manyUpTo_read?_eq, bind_assoc]

variable {column : String} {part : ColumnPart} {reader left : Reader}

theorem IsFrom.words_ne_nil (hpart : part.IsFrom column) : part.words ≠ [] := by
  obtain ⟨word, taken, -, hwords, -⟩ := hpart
  rw [hwords]
  exact List.cons_ne_nil word taken

/-- A part that is taken stands in front of the words that are left. -/
theorem isFrom_of_run_read? (hrun : (read? column).run reader = .ok (some part) left) :
    part.IsFrom column ∧ part.words ++ left.remaining = reader.remaining := by
  rcases cases_of_run_next?_bind hrun with ⟨middle, -, -, hrest⟩ | ⟨word, middle, hwords, hrest⟩
  · cases hrest
  obtain ⟨⟨taken, constraint⟩, last, hpart, hlast⟩ := run_bind_eq_ok.mp hrest
  cases hlast
  obtain ⟨hgives, htaken⟩ := run_withWords (ColumnConstraint.isWordwise_readFrom column word) hpart
  rw [hwords]
  exact ⟨⟨word, taken, left.remaining, rfl, hgives⟩, congrArg (word :: ·) htaken⟩

theorem eq_nil_of_run_read?_none (hrun : (read? column).run reader = .ok none left) :
    reader.remaining = [] ∧ left.remaining = [] := by
  have hplain : (ColumnConstraint.read? column).run reader = .ok none left := by
    rw [← read?_eq]
    exact run_bind_eq_ok.mpr ⟨none, left, hrun, rfl⟩
  exact ColumnConstraint.eq_nil_of_read?_none hplain

/-- The parts that are taken stand in front of the words that are left, and none are left if there
were no more than the limit. -/
theorem isFrom_of_run_manyUpTo {parts : List ColumnPart} {limit : Nat}
    (hrun : (manyUpTo (read? column) limit).run reader = .ok parts left) :
    (∀ part ∈ parts, part.IsFrom column) ∧
      parts.flatMap words ++ left.remaining = reader.remaining ∧
      (reader.remaining.length ≤ limit → left.remaining = []) := by
  -- on the limit: every part takes a word at least, so that the words run out before it does
  induction limit generalizing reader parts with
  | zero =>
      cases hrun
      refine ⟨List.forall_mem_nil _, rfl, fun hlimit => List.eq_nil_of_length_eq_zero ?_⟩
      omega
  | succ limit ih =>
      obtain ⟨found, middle, hfound, hrun⟩ := run_bind_eq_ok.mp hrun
      cases found with
      | none =>
          cases hrun
          obtain ⟨hreader, hleft⟩ := eq_nil_of_run_read?_none hfound
          rw [hreader, hleft]
          exact ⟨List.forall_mem_nil _, rfl, fun _ => rfl⟩
      | some part =>
          obtain ⟨others, last, hothers, hrun⟩ := run_bind_eq_ok.mp hrun
          cases hrun
          obtain ⟨hpart, hwords⟩ := isFrom_of_run_read? hfound
          obtain ⟨hall, hrest, hend⟩ := ih hothers
          have hpos : 0 < part.words.length := List.length_pos_iff.mpr hpart.words_ne_nil
          have hlength := congrArg List.length hwords
          rw [List.length_append] at hlength
          refine ⟨List.forall_mem_cons.mpr ⟨hpart, hall⟩, ?_, fun hlimit => hend (by omega)⟩
          rw [List.flatMap_cons, List.append_assoc, hrest, hwords]

/-! ### What the words of a part say -/

/-- What a part can be, and the words that make it so. -/
inductive Shape : ColumnPart → Prop
  | name {first second : String} (hfirst : Text.lower first = "constraint") :
      Shape ⟨[first, second], .named (Text.unquoteIdentifier second)⟩
  | reference {first : String} {taken : List String} {reference : Reference}
      (hfirst : Text.lower first = "references") (hcolumns : reference.columns.length = 1) :
      Shape ⟨first :: taken, .references reference⟩
  | plain {first : String} {taken : List String} {constraint : ColumnConstraint}
      (hfirst : ColumnConstraint.IsPlain first) (hplain : constraint.isPlain = true) :
      Shape ⟨first :: taken, constraint⟩

theorem IsFrom.shape (hpart : part.IsFrom column) : part.Shape := by
  obtain ⟨words, constraint⟩ := part
  obtain ⟨word, taken, rest, hwords, hgives⟩ := hpart
  subst hwords
  by_cases hconstraint : Text.lower word = "constraint"
  · rw [ColumnConstraint.readFrom_constraint hconstraint] at hgives
    -- The name is the one word that is taken.
    cases hall : taken ++ rest with
    | nil =>
        rw [hall] at hgives
        cases hgives.unique (((gives_expectWord_nil _).bind_error _).bind_error _)
    | cons second others =>
        rw [hall] at hgives
        have hname : Gives (do
            return ColumnConstraint.named (← expectIdentifier "constraint name"))
            (second :: others) (.ok (.named (Text.unquoteIdentifier second), others)) :=
          ((isWordwise_expectIdentifier _).gives_of_reads
            (reads_expectIdentifier _ second others)).bind (gives_pure _ others)
        cases hgives.unique hname
        obtain rfl : taken = [second] := List.append_cancel_right hall
        exact .name hconstraint
  by_cases hreferences : Text.lower word = "references"
  · rw [ColumnConstraint.readFrom_references hreferences] at hgives
    obtain ⟨reference, rfl, hcolumns⟩ :=
      hgives.returns (ColumnConstraint.returns_readReference column)
    exact .reference hreferences hcolumns
  · have hword : ColumnConstraint.IsPlain word := ⟨hconstraint, hreferences⟩
    exact .plain hword (hgives.returns (ColumnConstraint.returns_readFrom column hword))

variable {part : ColumnPart}

/-- A part gives a name when it is `CONSTRAINT` and the name, and in no other way. -/
theorem Shape.name?_eq_some_iff (hpart : part.Shape) {name : String} :
    part.name? = some name ↔
      ∃ first second, part.words = [first, second] ∧ Text.lower first = "constraint" ∧
        Text.unquoteIdentifier second = name := by
  -- by the shape, which the first word decides
  cases hpart with
  | name hfirst =>
      rw [name?, Option.some.injEq]
      constructor
      · exact fun hname => ⟨_, _, rfl, hfirst, hname⟩
      · rintro ⟨first, second, hwords, -, hname⟩
        cases hwords
        exact hname
  | reference hfirst hcolumns =>
      constructor
      · exact fun hname => nomatch hname
      · rintro ⟨first, second, hwords, hconstraint, -⟩
        cases hwords
        exact absurd (hfirst.symm.trans hconstraint) (by decide)
  | plain hfirst hplain =>
      constructor
      · intro hname
        rename_i constraint
        cases constraint <;> cases hname
        cases hplain
      · rintro ⟨first, second, hwords, hconstraint, -⟩
        cases hwords
        exact absurd hconstraint hfirst.1

/-- A part is a foreign key when its first word is `REFERENCES`. -/
theorem Shape.isReference_iff (hpart : part.Shape) :
    part.isReference = true ↔ ∃ first ∈ part.words.head?, Text.lower first = "references" := by
  cases hpart with
  | name hfirst => simp [isReference, hfirst]
  | reference hfirst hcolumns => simp [isReference, hfirst]
  | plain hfirst hplain =>
      rename_i constraint
      cases constraint <;> simp_all [isReference, hfirst.2, ColumnConstraint.isPlain]

end ColumnPart

/-! ## Clauses with their words -/

/-- A column definition as it is written. -/
structure WrittenColumn where
  /-- The words of the name and the type. -/
  opening : List String
  /-- The column without its constraints. -/
  column : Column
  /-- The constraints, with their words. -/
  parts : List ColumnPart
  deriving DecidableEq, Repr, Inhabited

namespace WrittenColumn

/-- Takes a whole column definition. -/
def readWords (file : String) : Reading WrittenColumn := do
  let (opening, column) ← withWords (ColumnDefinition.readColumn file)
  let parts ← many (ColumnPart.read? column.name)
  return ⟨opening, column, parts⟩

/-- Reads a text as a column definition. -/
def ofText (file text : String) : Except ParseError WrittenColumn :=
  (readWords file).ofText file text

/-- What the clause declares. -/
def definition (clause : WrittenColumn) : ColumnDefinition :=
  ((clause.parts.map ColumnPart.constraint).foldl ColumnDraft.add
    ⟨clause.column, none, none⟩).definition

/-- Reading a definition is reading its clause. -/
theorem readWords_eq (file : String) :
    (do return (← readWords file).definition) = ColumnDefinition.readWords file := by
  have hcolumn : (do
      let column ← (do return (← withWords (ColumnDefinition.readColumn file)).2 : Reading Column)
      let constraints ← many (ColumnConstraint.read? column.name)
      return (constraints.foldl ColumnDraft.add ⟨column, none, none⟩).definition) =
        ColumnDefinition.readWords file := by
    rw [withWords_eq]
    rfl
  rw [← hcolumn, readWords]
  simp only [← ColumnPart.many_read?_eq, bind_assoc, pure_bind, definition]

variable {origin : Origin} {file table text : String} {definition : ColumnDefinition}
  {written : WrittenColumn}

/-- A definition that is read is what its text declares as it is written. -/
theorem exists_of_read (hread : ColumnDefinition.read origin table text = .ok definition) :
    ∃ written, ofText origin.file text = .ok written ∧ written.definition = definition := by
  simp only [ColumnDefinition.read, except_bind_eq_ok, except_pure_eq_ok] at hread
  obtain ⟨declared, hwords, ⟨⟩, -, rfl⟩ := hread
  obtain ⟨left, hrun⟩ := ofText_eq_ok_iff.mp hwords
  rw [← readWords_eq, run_bind_eq_ok] at hrun
  obtain ⟨written, last, hwritten, hrun⟩ := hrun
  cases hrun
  exact ⟨written, ofText_eq_ok_iff.mpr ⟨_, hwritten⟩, rfl⟩

/-- The words of a definition are those of name and type and those of its constraints. -/
theorem words_of_ofText (hread : ofText file text = .ok written) :
    Text.words text = written.opening ++ written.parts.flatMap ColumnPart.words ∧
      ∀ part ∈ written.parts, part.Shape := by
  obtain ⟨left, hrun⟩ := ofText_eq_ok_iff.mp hread
  obtain ⟨⟨opening, column⟩, middle, hcolumn, hrun⟩ := run_bind_eq_ok.mp hrun
  obtain ⟨parts, last, hparts, hrun⟩ := run_bind_eq_ok.mp hrun
  cases hrun
  obtain ⟨-, hopening⟩ := run_withWords (ColumnDefinition.isWordwise_readColumn file) hcolumn
  have hparts : (manyUpTo (ColumnPart.read? column.name) middle.remaining.length).run middle =
      .ok parts left := hparts
  obtain ⟨hfrom, hwords, hend⟩ := ColumnPart.isFrom_of_run_manyUpTo hparts
  have hstart : (Reader.start file text).remaining = Text.words text := rfl
  rw [hend (Nat.le_refl _), List.append_nil] at hwords
  refine ⟨?_, fun part hpart => (hfrom part hpart).shape⟩
  rw [← hstart, ← hopening, hwords]

end WrittenColumn

end Schemata
