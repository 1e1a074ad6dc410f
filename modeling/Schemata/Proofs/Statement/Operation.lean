import Schemata.Proofs.Outcome
import Schemata.Proofs.Reader
import Schemata.Statement.Operation

/-!
# What operations are read as

The first word of an operation decides how it is read.  `Operation.read_cases` says once what an
operation can be read as: what stands behind `ADD` is a constraint or a column, `DROP`, `ALTER` and
`RENAME` make operations that are read in place (`Operation.isDirect`), and any other text is kept.

These are statements about whatever is read, and they leave open what exactly is read of which text.
That is enough for results over all texts: only a column brings data of its own into the catalog,
and it comes with the reading that made it; several operations at once are never read as one.
-/

namespace Schemata

namespace Operation

/-- The operation drops, alters or renames something, and is read from its words alone. -/
def isDirect : Operation → Bool
  | dropColumn _ _ => true
  | alterColumn _ _ => true
  | renameColumn _ _ => true
  | renameTable _ => true
  | dropConstraint _ _ => true
  | renameConstraint _ _ => true
  | _ => false

/-- The keywords that start an operation. -/
def keywords : List String :=
  ["add", "drop", "alter", "rename"]

theorem readDrop_returns : Reading.Returns (isDirect · = true) readDrop := by
  refine Reading.returns_bind fun accepted => ?_
  split
  · exact Reading.returns_bind fun _ => Reading.returns_bind fun _ =>
      Reading.returns_bind fun _ => Reading.returns_pure rfl
  · exact Reading.returns_bind fun _ => Reading.returns_bind fun _ =>
      Reading.returns_bind fun _ => Reading.returns_bind fun _ => Reading.returns_pure rfl

theorem readAlter_returns : Reading.Returns (isDirect · = true) readAlter :=
  Reading.returns_bind fun _ => Reading.returns_bind fun _ =>
    Reading.returns_bind fun _ => Reading.returns_pure rfl

theorem readRename_returns : Reading.Returns (isDirect · = true) readRename := by
  refine Reading.returns_bind fun accepted => ?_
  split
  · exact Reading.returns_bind fun _ => Reading.returns_bind fun _ => Reading.returns_pure rfl
  refine Reading.returns_bind fun accepted => ?_
  split
  · exact Reading.returns_bind fun _ => Reading.returns_pure rfl
  · exact Reading.returns_bind fun _ => Reading.returns_bind fun _ => Reading.returns_pure rfl

/-- A first reading that found a keyword: an addition or a direct operation. -/
def Outline.IsKeyed : Outline → Prop
  | .whole operation => operation.isDirect = true
  | _ => True

theorem readAdd_returns : Reading.Returns Outline.IsKeyed readAdd := by
  refine Reading.returns_bind fun reader => ?_
  split
  · exact Reading.returns_bind fun reader => Reading.returns_pure trivial
  refine Reading.returns_bind fun _ => Reading.returns_bind fun ifNotExists =>
    Reading.returns_bind fun reader => ?_
  split
  · exact Reading.returns_fail _
  · exact Reading.returns_pure trivial

theorem returns_whole {action : Reading Operation}
    (haction : Reading.Returns (isDirect · = true) action) :
    Reading.Returns Outline.IsKeyed (do return .whole (← action)) :=
  haction.bind fun _ hdirect => Reading.returns_pure hdirect

/-- A first reading either finds one of the keywords at the start or keeps the text. -/
theorem readOutline_cases {file text : String} {outline : Outline}
    (hread : readOutline.ofText file text = .ok outline) :
    (∃ keyword ∈ keywords, (Reader.start file text).nextIs keyword = true) ∧ outline.IsKeyed ∨
      outline = .whole (unsupported (Text.trim text)) := by
  unfold Reading.ofText at hread
  split at hread
  · rename_i value left hrun
    cases hread
    -- one keyword after the other; without any of them the text is kept
    unfold readOutline at hrun
    rw [Reading.run_accept_else] at hrun
    split at hrun
    · rename_i hadd
      exact Or.inl ⟨⟨"add", by decide, hadd⟩, readAdd_returns hrun⟩
    rw [Reading.run_accept_else] at hrun
    split at hrun
    · rename_i hdrop
      exact Or.inl ⟨⟨"drop", by decide, hdrop⟩, returns_whole readDrop_returns hrun⟩
    rw [Reading.run_accept_else] at hrun
    split at hrun
    · rename_i halter
      exact Or.inl ⟨⟨"alter", by decide, halter⟩, returns_whole readAlter_returns hrun⟩
    rw [Reading.run_accept_else] at hrun
    split at hrun
    · rename_i hrename
      exact Or.inl ⟨⟨"rename", by decide, hrename⟩, returns_whole readRename_returns hrun⟩
    cases hrun
    exact Or.inr rfl
  · cases hread

/-- What an operation can be read as, by its first word. -/
theorem read_cases {origin : Origin} {table text : String} {operation : Operation}
    (hread : read origin table text = .ok operation) :
    (∃ keyword ∈ keywords, (Reader.start origin.file text).nextIs keyword = true) ∧
      (operation.isDirect = true ∨ (∃ constraint, operation = addConstraint constraint) ∨
        ∃ added definition ifNotExists,
          ColumnDefinition.read origin table added = .ok definition ∧
            operation = addColumn definition ifNotExists) ∨
    operation = unsupported (Text.trim text) := by
  simp only [read, except_bind_eq_ok] at hread
  obtain ⟨outline, houtline, hread⟩ := hread
  rcases readOutline_cases houtline with ⟨hkeyword, hkeyed⟩ | rfl
  · refine Or.inl ⟨hkeyword, ?_⟩
    -- by the first reading: done, or a constraint or a column to be read from the rest of the text
    cases outline with
    | whole whole =>
        cases hread
        exact Or.inl hkeyed
    | constraint added =>
        simp only [except_bind_eq_ok, except_pure_eq_ok] at hread
        obtain ⟨constraint?, -, rfl⟩ := hread
        exact Or.inr (Or.inl ⟨_, rfl⟩)
    | column added ifNotExists =>
        simp only [except_bind_eq_ok, except_pure_eq_ok] at hread
        obtain ⟨definition, hdefinition, rfl⟩ := hread
        exact Or.inr (Or.inr ⟨added, definition, ifNotExists, hdefinition, rfl⟩)
  · cases hread
    exact Or.inr rfl

/-- No single operation stands for several. -/
theorem ne_several_of_read {origin : Origin} {table text : String} {operation : Operation}
    (hread : read origin table text = .ok operation) (clauses : List String) :
    operation ≠ several clauses := by
  rintro rfl
  obtain ⟨-, hdirect | ⟨constraint, hconstraint⟩ | ⟨_, _, _, -, hcolumn⟩⟩ | hkept :=
    read_cases hread
  · cases hdirect
  · cases hconstraint
  · cases hcolumn
  · cases hkept

/-- An operation that is kept as text is kept as it was written. -/
theorem eq_of_read_unsupported {origin : Origin} {table text kept : String}
    (hread : read origin table text = .ok (unsupported kept)) : kept = Text.trim text := by
  obtain ⟨-, hdirect | ⟨constraint, hconstraint⟩ | ⟨_, _, _, -, hcolumn⟩⟩ | hkept :=
    read_cases hread
  · cases hdirect
  · cases hconstraint
  · cases hcolumn
  · cases hkept
    rfl

end Operation

end Schemata
