import Schemata.Proofs.Reader
import Schemata.Statement.Reading

/-!
# Readings are made of steps

Every reader of a statement is made of three steps: it looks at its words, takes some of them, or
refuses its text (`Reading.Stepwise`).  What the steps do can be said once and then holds of every
reader, whatever its grammar:

* `Stepwise.run_ok`: what is left are the same words of the same text with some of them taken.
* `Stepwise.run_error`, `Stepwise.ofText_error`: an error is a fault of the text that was read.

Each property takes one induction over `Reading.Stepwise`, with a case for each of the three steps.
A reader that changes needs its own line in the list below and no property proved again.

The second half of the module lists the readers, up to `CreateTable.stepwise_readHeader`,
`AlterTable.stepwise_readHeader` and `ColumnDefinition.stepwise_readWords`.
-/

namespace Schemata

/-- Words that are taken in two goes. -/
theorem Reader.skip_skip (reader : Reader) (first second : Nat) :
    (reader.skip first).skip second = reader.skip (first + second) := by
  obtain ⟨file, text, taken, remaining⟩ := reader
  simp only [skip, List.length_drop, List.drop_drop, Reader.mk.injEq, true_and, and_true]
  omega

theorem Reader.remainder_file (reader : Reader) (file : String) :
    { reader with file }.remainder = reader.remainder := rfl

theorem Reader.skip_zero (reader : Reader) : reader.skip 0 = reader := by
  simp [skip]

namespace Reading

variable {α β γ : Type}

/-- The reading is made of steps.  What it does next depends on the values of its steps and on the
words and the text, but not on the file. -/
inductive Stepwise : {α : Type} → Reading α → Prop where
  | pure {α : Type} (value : α) : Stepwise (pure value)
  | fail {α : Type} (fault : Fault) : Stepwise (fail fault : Reading α)
  | bind {α β : Type} {first : Reading α} {next : α → Reading β} (hfirst : Stepwise first)
      (hnext : ∀ value, Stepwise (next value)) : Stepwise (first >>= next)
  | look {α : Type} {next : Reader → Reading α}
      (hsame : ∀ (reader : Reader) (file : String), next { reader with file } = next reader)
      (hnext : ∀ reader, Stepwise (next reader)) : Stepwise (get >>= next)
  | skip (count : Nat) : Stepwise (skip count)

/-- The reading takes words and leaves the text. -/
def KeepsText (action : Reading α) : Prop :=
  ∀ ⦃reader : Reader⦄ ⦃value : α⦄ ⦃left : Reader⦄, action.run reader = .ok value left →
    left.text = reader.text

/-! ## What steps do -/

section Run

variable {action : Reading α} {reader left : Reader} {value : α} {error : ParseError}

theorem Stepwise.run_ok (hsteps : Stepwise action) (hrun : action.run reader = .ok value left) :
    ∃ count, left = reader.skip count := by
  induction hsteps generalizing reader left with
  | pure value =>
      cases hrun
      exact ⟨0, reader.skip_zero.symm⟩
  | fail fault => cases hrun
  | bind _ _ ihfirst ihnext =>
      obtain ⟨given, middle, hgiven, hrun⟩ := run_bind_eq_ok.mp hrun
      obtain ⟨first, rfl⟩ := ihfirst hgiven
      obtain ⟨second, rfl⟩ := ihnext given hrun
      exact ⟨first + second, reader.skip_skip first second⟩
  | look _ _ ih => exact ih reader hrun
  | skip count =>
      cases hrun
      exact ⟨count, rfl⟩

theorem Stepwise.keepsText (hsteps : Stepwise action) : KeepsText action := by
  intro reader value left hrun
  obtain ⟨count, rfl⟩ := hsteps.run_ok hrun
  rfl

theorem Stepwise.run_error (hsteps : Stepwise action)
    (hrun : action.run reader = .error error left) :
    (∃ count, left = reader.skip count) ∧ ∃ fault, error = reader.error fault := by
  induction hsteps generalizing reader left with
  | pure value => cases hrun
  | fail fault =>
      cases hrun
      exact ⟨⟨0, reader.skip_zero.symm⟩, fault, rfl⟩
  | @bind _ _ first next hfirst _ ihfirst ihnext =>
      rw [EStateM.run_bind] at hrun
      split at hrun
      · rename_i given middle hgiven
        obtain ⟨first, rfl⟩ := hfirst.run_ok hgiven
        obtain ⟨⟨second, hleft⟩, hfault⟩ := ihnext given hrun
        exact ⟨⟨first + second, by rw [hleft, reader.skip_skip]⟩, hfault⟩
      · rename_i failed middle hfailed
        cases hrun
        exact ihfirst hfailed
  | look _ _ ih => exact ih reader hrun
  | skip count => cases hrun

/-- An error is a fault of the text. -/
theorem Stepwise.ofText_error (hsteps : Stepwise action) {file text : String}
    (hread : action.ofText file text = .error error) :
    ∃ fault, error = .ofFault file text fault := by
  unfold Reading.ofText at hread
  split at hread
  · cases hread
  · rename_i failed left hrun
    cases hread
    exact (hsteps.run_error hrun).2

end Run

/-! ## Steps put together -/

theorem discard_eq_bind (action : Reading α) :
    discard action = (do let _ ← action; return () : Reading Unit) := by
  funext reader
  refine (run_discard action reader).trans ?_
  show _ = (action >>= fun _ => pure ()).run reader
  rw [EStateM.run_bind]
  cases action.run reader <;> rfl

theorem Stepwise.discard {action : Reading α} (haction : Stepwise action) :
    Stepwise (discard action) := by
  rw [discard_eq_bind]
  exact haction.bind fun _ => .pure ()

theorem Stepwise.map {action : Reading α} (haction : Stepwise action) {change : α → β} :
    Stepwise (change <$> action) := by
  rw [map_eq_pure_bind]
  exact haction.bind fun _ => .pure _

theorem stepwise_next? : Stepwise next? :=
  .look (fun _ _ => rfl) fun _ => (Stepwise.skip 1).bind fun _ => .pure _

theorem stepwise_accept (keyword : String) : Stepwise (accept keyword) := by
  refine .look (fun _ _ => rfl) fun reader => ?_
  split
  · exact (Stepwise.skip 1).bind fun _ => .pure true
  · exact .pure false

theorem stepwise_acceptAll (keywords : List String) : Stepwise (acceptAll keywords) := by
  refine .look (fun _ _ => rfl) fun reader => ?_
  split
  · exact (Stepwise.skip _).bind fun _ => .pure true
  · exact .pure false

theorem stepwise_acceptAny (keywords : List String) : Stepwise (acceptAny keywords) := by
  refine .look (fun _ _ => rfl) fun reader => ?_
  split
  · exact stepwise_next?
  · exact .pure none

theorem stepwise_expectKeyword (keyword : String) : Stepwise (expectKeyword keyword) := by
  refine .look (fun _ _ => rfl) fun reader => ?_
  split
  · split
    · exact (Stepwise.skip 1).bind fun _ => .pure _
    · exact .fail _
  · exact .fail _

theorem stepwise_expectWord (what : String) : Stepwise (expectWord what) := by
  refine stepwise_next?.bind fun word => ?_
  cases word with
  | some word => exact .pure word
  | none => exact .fail _

theorem stepwise_expectIdentifier (what : String) : Stepwise (expectIdentifier what) :=
  (stepwise_expectWord what).bind fun _ => .pure _

theorem stepwise_group? (word : String) : Stepwise (group? word) := by
  unfold group?
  split
  · exact .pure _
  refine .look (fun _ _ => rfl) fun reader => ?_
  split
  · split
    · exact (Stepwise.skip 1).bind fun _ => .pure _
    · exact .pure none
  · exact .pure none

theorem stepwise_expectGroup (word what : String) : Stepwise (expectGroup word what) := by
  refine (stepwise_group? word).bind fun inside => ?_
  cases inside with
  | some inside => exact .pure inside
  | none => exact .fail _

theorem stepwise_rest : Stepwise rest :=
  .look (fun _ _ => rfl) fun _ => (Stepwise.skip _).bind fun _ => .pure _

theorem stepwise_takeWhile (test : String → Bool) : Stepwise (takeWhile test) :=
  .look (fun _ _ => rfl) fun _ => (Stepwise.skip _).bind fun _ => .pure _

theorem stepwise_expectEnd : Stepwise expectEnd := by
  refine .look (fun _ _ => rfl) fun reader => ?_
  split
  · exact .fail _
  · exact .pure ()

theorem stepwise_manyUpTo {step : Reading (Option α)} (hstep : Stepwise step) (limit : Nat) :
    Stepwise (manyUpTo step limit) := by
  induction limit with
  | zero => exact .pure []
  | succ limit ih =>
      refine hstep.bind fun item => ?_
      cases item with
      | some item => exact ih.bind fun _ => .pure _
      | none => exact .pure []

theorem stepwise_many {step : Reading (Option α)} (hstep : Stepwise step) : Stepwise (many step) :=
  .look (fun _ _ => rfl) fun _ => stepwise_manyUpTo hstep _

theorem stepwise_mapM {step : γ → Reading α} (hstep : ∀ item, Stepwise (step item))
    (items : List γ) : Stepwise (items.mapM step) := by
  induction items with
  | nil => exact .pure []
  | cons item rest ih =>
      rw [List.mapM_cons]
      exact (hstep item).bind fun _ => ih.bind fun _ => .pure _

theorem stepwise_nameList (what : String) : Stepwise (nameList what) := by
  refine stepwise_rest.bind fun words => ?_
  dsimp only
  split
  · exact .fail _
  · exact .pure _

end Reading

open Reading

/-! ## References and constraints -/

theorem ReferenceOption.stepwise_readAction : Stepwise readAction := by
  refine (stepwise_expectWord _).bind fun event => .look (fun _ _ => rfl) fun reader => ?_
  split
  · exact .fail _
  · refine (Stepwise.skip _).bind fun _ => ?_
    split
    · exact .pure _
    split
    · exact .pure _
    · exact .fail _

theorem ReferenceOption.stepwise_read? : Stepwise read? := by
  refine (stepwise_accept _).bind fun action => ?_
  split
  · exact stepwise_readAction.bind fun _ => .pure _
  refine (stepwise_accept _).bind fun matching => ?_
  split
  · exact (stepwise_expectWord _).discard.bind fun _ => .pure _
  refine (stepwise_accept _).bind fun initially => ?_
  split
  · exact (stepwise_expectWord _).discard.bind fun _ => .pure _
  refine (stepwise_accept _).bind fun deferrable => ?_
  split
  · exact .pure _
  refine (stepwise_acceptAll _).bind fun firm => ?_
  split
  · exact .pure _
  · exact .pure _

theorem Reference.stepwise_read : Stepwise read := by
  refine (stepwise_expectWord _).bind fun word => ?_
  dsimp only
  split
  · exact .fail _
  · exact (stepwise_group? word).bind fun _ =>
      (stepwise_many ReferenceOption.stepwise_read?).bind fun _ => .pure _

namespace TableConstraint

theorem stepwise_readPrimaryKey (name : Option String) : Stepwise (readPrimaryKey name) := by
  refine (Stepwise.skip 1).bind fun _ => (stepwise_expectKeyword _).bind fun key => ?_
  refine (stepwise_expectGroup key _).bind fun columns => ?_
  split
  · exact .fail _
  · exact .pure _

theorem stepwise_readForeignKey (name : Option String) : Stepwise (readForeignKey name) := by
  refine (Stepwise.skip 1).bind fun _ => (stepwise_expectKeyword _).bind fun key => ?_
  refine (stepwise_expectGroup key _).bind fun columns => ?_
  split
  · exact .fail _
  · refine (stepwise_expectKeyword _).discard.bind fun _ =>
      Reference.stepwise_read.bind fun written => ?_
    extract_lets reference
    split
    · exact .pure _
    · exact .fail _

theorem stepwise_readUnique (name : Option String) : Stepwise (readUnique name) :=
  (stepwise_expectKeyword _).bind fun word => (stepwise_expectGroup word _).bind fun _ =>
    .pure _

theorem stepwise_readCheck (name : Option String) : Stepwise (readCheck name) :=
  (stepwise_expectKeyword _).bind fun word => (stepwise_expectGroup word _).bind fun _ =>
    .pure _

theorem stepwise_readName? : Stepwise readName? := by
  refine (stepwise_accept _).bind fun named => ?_
  split
  · exact (stepwise_expectIdentifier _).bind fun _ => .pure _
  · exact .pure none

theorem stepwise_readWords? : Stepwise readWords? := by
  refine stepwise_readName?.bind fun name => .look (fun _ _ => rfl) fun reader => ?_
  split
  · exact (stepwise_readPrimaryKey name).bind fun _ => .pure _
  split
  · exact (stepwise_readForeignKey name).bind fun _ => .pure _
  split
  · exact (stepwise_readUnique name).bind fun _ => .pure _
  split
  · exact (stepwise_readCheck name).bind fun _ => .pure _
  split
  · exact .pure _
  · exact .pure none

end TableConstraint

/-! ## Definitions and removals -/

theorem CreateSchema.stepwise_readWords : Stepwise readWords := by
  refine (stepwise_expectKeyword _).discard.bind fun _ =>
    (stepwise_expectKeyword _).discard.bind fun _ => (stepwise_acceptAll _).bind fun _ =>
    (stepwise_accept _).discard.bind fun _ => (stepwise_expectIdentifier _).bind fun _ =>
    (stepwise_accept _).bind fun owned => ?_
  split
  · exact (stepwise_expectWord _).discard.bind fun _ => stepwise_expectEnd.bind fun _ =>
      .pure _
  · exact stepwise_expectEnd.bind fun _ => .pure _

theorem CreateIndex.stepwise_readColumns (table : String) : Stepwise (readColumns table) := by
  refine (stepwise_group? table).bind fun body => ?_
  cases body with
  | some body => exact .pure _
  | none =>
      refine (stepwise_accept _).bind fun using? => ?_
      split
      · exact (stepwise_expectWord _).bind fun method => stepwise_group? method
      · exact .pure none

/-- The words behind the name of an index, which may be left out. -/
theorem CreateIndex.stepwise_readIndexed (name : Option String) (unique ifNotExists : Bool) :
    Stepwise (do
      discard (expectKeyword "on")
      discard (accept "only")
      let word ← expectWord "table name"
      match ← readColumns word with
      | none => fail (.expected "indexed column list")
      | some body =>
          match (Text.clauses body).map indexedColumn with
          | [] => fail .emptyIndexedColumns
          | columns => return (⟨name, ObjectName.read (Text.head word), columns, unique,
              ifNotExists⟩ : CreateIndex)) := by
  refine (stepwise_expectKeyword _).discard.bind fun _ => (stepwise_accept _).discard.bind fun _ =>
    (stepwise_expectWord _).bind fun word => (stepwise_readColumns word).bind fun body => ?_
  cases body with
  | none => exact .fail _
  | some body =>
      dsimp only
      split
      · exact .fail _
      · exact .pure _

theorem CreateIndex.stepwise_readWords : Stepwise readWords := by
  refine (stepwise_expectKeyword _).discard.bind fun _ => (stepwise_accept _).bind fun _ =>
    (stepwise_expectKeyword _).discard.bind fun _ => (stepwise_accept _).discard.bind fun _ =>
    (stepwise_acceptAll _).bind fun _ => .look (fun _ _ => rfl) fun reader => ?_
  dsimp only
  split
  · exact stepwise_readIndexed none _ _
  · exact (stepwise_expectIdentifier _).map.bind fun name => stepwise_readIndexed name _ _

theorem CreateEnum.stepwise_readWords : Stepwise readWords := by
  have hvalue : ∀ value, Stepwise (readValue value) := by
    intro value
    unfold readValue
    split
    · exact .pure _
    · exact .fail _
  exact (stepwise_expectKeyword _).discard.bind fun _ =>
    (stepwise_expectKeyword _).discard.bind fun _ => (stepwise_expectWord _).bind fun _ =>
    (stepwise_expectKeyword _).discard.bind fun _ => (stepwise_expectKeyword _).bind fun keyword =>
    (stepwise_expectGroup keyword _).bind fun _ => stepwise_expectEnd.bind fun _ =>
    (stepwise_mapM hvalue _).bind fun _ => .pure _

namespace Removal

theorem stepwise_readNames {α : Type} (readName : String → α) (what : String) :
    Stepwise (readNames readName what) :=
  (stepwise_acceptAll _).bind fun _ => (stepwise_nameList what).bind fun _ => .pure _

theorem stepwise_expectKind (kind : String) : Stepwise (expectKind kind) :=
  (stepwise_expectKeyword _).discard.bind fun _ => (stepwise_expectKeyword kind).discard

theorem stepwise_readKindNames {α : Type} (readName : String → α) (kind what : String) :
    Stepwise (do expectKind kind; readNames readName what) :=
  (stepwise_expectKind kind).bind fun _ => stepwise_readNames readName what

/-- Between `DROP INDEX` and the names `CONCURRENTLY` may stand. -/
theorem stepwise_readIndexNames : Stepwise (do
    expectKind "index"
    discard (accept "concurrently")
    readNames ObjectName.read "index name") :=
  (stepwise_expectKind _).bind fun _ => (stepwise_accept _).discard.bind fun _ =>
    stepwise_readNames _ _

end Removal

/-! ## Operations -/

namespace ColumnChange

theorem stepwise_readType : Stepwise readType := by
  refine (stepwise_takeWhile _).bind fun words => ?_
  split
  · exact .pure _
  · exact .fail _

theorem stepwise_readDefault : Stepwise readDefault := by
  refine stepwise_rest.bind fun words => ?_
  split
  · exact .fail _
  · exact .pure _

theorem stepwise_read : Stepwise read := by
  refine (stepwise_accept _).bind fun type => ?_
  split
  · exact stepwise_readType
  refine (stepwise_acceptAll _).bind fun setType => ?_
  split
  · exact stepwise_readType
  refine (stepwise_acceptAll _).bind fun setNotNull => ?_
  split
  · exact stepwise_expectEnd.bind fun _ => .pure _
  refine (stepwise_acceptAll _).bind fun dropNotNull => ?_
  split
  · exact stepwise_expectEnd.bind fun _ => .pure _
  refine (stepwise_acceptAll _).bind fun setDefault => ?_
  split
  · exact stepwise_readDefault
  refine (stepwise_acceptAll _).bind fun dropDefault => ?_
  split
  · exact stepwise_expectEnd.bind fun _ => .pure _
  refine .look (fun _ _ => rfl) fun reader => ?_
  split
  · exact .fail _
  · exact .pure _

end ColumnChange

namespace Operation

theorem stepwise_readAdd : Stepwise readAdd := by
  refine .look (fun _ _ => rfl) fun reader => ?_
  split
  · exact .look (fun _ _ => rfl) fun _ => .pure _
  refine (stepwise_accept _).discard.bind fun _ => (stepwise_acceptAll _).bind fun _ =>
    .look (fun _ _ => rfl) fun reader => ?_
  split
  · exact .fail _
  · exact .pure _

theorem stepwise_expectDropEnd : Stepwise expectDropEnd :=
  (stepwise_acceptAny _).discard.bind fun _ => stepwise_expectEnd

theorem stepwise_readDrop : Stepwise readDrop := by
  refine (stepwise_accept _).bind fun constraint => ?_
  split
  · exact (stepwise_acceptAll _).bind fun _ => (stepwise_expectIdentifier _).bind fun _ =>
      stepwise_expectDropEnd.bind fun _ => .pure _
  · exact (stepwise_accept _).discard.bind fun _ => (stepwise_acceptAll _).bind fun _ =>
      (stepwise_expectIdentifier _).bind fun _ => stepwise_expectDropEnd.bind fun _ => .pure _

theorem stepwise_readAlter : Stepwise readAlter :=
  (stepwise_accept _).discard.bind fun _ => (stepwise_expectIdentifier _).bind fun _ =>
    ColumnChange.stepwise_read.bind fun _ => .pure _

theorem stepwise_readRenaming (what newWhat : String) : Stepwise (readRenaming what newWhat) :=
  (stepwise_expectIdentifier what).bind fun _ => (stepwise_expectKeyword _).discard.bind fun _ =>
    (stepwise_expectIdentifier newWhat).bind fun _ => stepwise_expectEnd.bind fun _ => .pure _

theorem stepwise_readRename : Stepwise readRename := by
  refine (stepwise_accept _).bind fun table => ?_
  split
  · exact (stepwise_expectWord _).bind fun _ => stepwise_expectEnd.bind fun _ => .pure _
  refine (stepwise_accept _).bind fun constraint => ?_
  split
  · exact (stepwise_readRenaming _ _).bind fun _ => .pure _
  · exact (stepwise_accept _).discard.bind fun _ => (stepwise_readRenaming _ _).bind fun _ =>
      .pure _

theorem stepwise_readOutline : Stepwise readOutline := by
  refine (stepwise_accept _).bind fun add => ?_
  split
  · exact stepwise_readAdd
  refine (stepwise_accept _).bind fun drop => ?_
  split
  · exact stepwise_readDrop.bind fun _ => .pure _
  refine (stepwise_accept _).bind fun alter => ?_
  split
  · exact stepwise_readAlter.bind fun _ => .pure _
  refine (stepwise_accept _).bind fun rename => ?_
  split
  · exact stepwise_readRename.bind fun _ => .pure _
  · exact .look (fun _ _ => rfl) fun _ => .pure _

end Operation

theorem AlterTable.stepwise_readHeader : Stepwise readHeader := by
  refine (stepwise_expectKeyword _).discard.bind fun _ =>
    (stepwise_expectKeyword _).discard.bind fun _ => (stepwise_acceptAll _).bind fun _ =>
    (stepwise_accept _).discard.bind fun _ => (stepwise_expectWord _).bind fun _ =>
    .look (fun reader file => by rw [reader.remainder_file file]) fun reader => ?_
  split
  · exact .fail _
  · exact .pure _

theorem CreateTable.stepwise_readHeader : Stepwise readHeader := by
  refine (stepwise_expectKeyword _).discard.bind fun _ =>
    (stepwise_acceptAny _).discard.bind fun _ => (stepwise_acceptAny _).discard.bind fun _ =>
    (stepwise_expectKeyword _).discard.bind fun _ => (stepwise_acceptAll _).bind fun _ =>
    (stepwise_expectWord _).bind fun word => ?_
  dsimp only
  split
  · exact .fail _
  refine (stepwise_group? word).bind fun body => ?_
  cases body with
  | none => exact .fail _
  | some body => exact .pure _

/-! ## Columns -/

namespace ColumnConstraint

theorem stepwise_readDefault : Stepwise readDefault :=
  (stepwise_expectWord _).bind fun _ => (stepwise_takeWhile _).bind fun _ => .pure _

theorem stepwise_readReference (column : String) : Stepwise (readReference column) := by
  refine Reference.stepwise_read.bind fun reference => ?_
  dsimp only
  split
  · exact .pure _
  · exact .fail _

theorem stepwise_readGeneratedPart? : Stepwise readGeneratedPart? := by
  refine (stepwise_acceptAll _).bind fun byDefault => ?_
  split
  · exact .pure _
  refine .look (fun _ _ => rfl) fun reader => ?_
  split
  · split
    · exact .pure none
    · exact (Stepwise.skip 1).bind fun _ => .pure _
  · exact .pure none

theorem stepwise_readFrom (column word : String) : Stepwise (readFrom column word) := by
  unfold readFrom
  split
  · exact (stepwise_expectKeyword _).discard.bind fun _ => .pure _
  · exact .pure _
  · exact (stepwise_expectKeyword _).discard.bind fun _ => .pure _
  · exact .pure _
  · exact stepwise_readDefault
  · exact stepwise_readReference column
  · exact (stepwise_expectWord _).discard.bind fun _ => .pure _
  · exact (stepwise_expectIdentifier _).bind fun _ => .pure _
  · exact (stepwise_many stepwise_readGeneratedPart?).discard.bind fun _ => .pure _
  · exact .fail _
  · dsimp only
    split
    · exact (stepwise_group? word).discard.bind fun _ => .pure _
    · exact .pure _

theorem stepwise_read? (column : String) : Stepwise (read? column) := by
  refine stepwise_next?.bind fun word => ?_
  cases word with
  | some word => exact (stepwise_readFrom column word).bind fun _ => .pure _
  | none => exact .pure none

end ColumnConstraint

namespace ColumnDefinition

theorem stepwise_readColumn (file : String) : Stepwise (readColumn file) := by
  refine (stepwise_expectIdentifier _).bind fun name => (stepwise_takeWhile _).bind fun words => ?_
  dsimp only
  split
  · exact .fail _
  split
  · exact .fail _
  · exact .pure _

theorem stepwise_readWords (file : String) : Stepwise (readWords file) :=
  (stepwise_readColumn file).bind fun column =>
    (stepwise_many (ColumnConstraint.stepwise_read? column.name)).bind fun _ => .pure _

end ColumnDefinition

end Schemata
